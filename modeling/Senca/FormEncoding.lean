import Mathlib.Data.List.Infix
import Mathlib.Data.List.TakeWhile
import Mathlib.Tactic.Common
import Senca.TextScanning

/-!
# Reading `application/x-www-form-urlencoded` parameters from a URL

The query stands between the first `?` and the fragment, its pieces are
separated by `&`, a piece is cut into name and value at its first `=`, and
both are decoded: `+` is a space, runs of percent escapes are UTF-8. Decoding
never lengthens a text, and shortens every text that holds an escape.
Nothing here refers to a particular program.
-/

namespace Senca.FormEncoding

open TextScanning

/-! ### UTF-8 -/

/-- What stands for bytes that are not UTF-8. -/
def replacement : Char := '\uFFFD'

/-- A character begun. -/
structure Begun where
  /-- Its value so far. -/
  value : ℕ
  /-- The bytes it lacks. -/
  lacks : ℕ
  /-- The least and the greatest byte that may follow. -/
  low : ℕ
  high : ℕ

/-- A byte where a character begins. -/
def firstByte (b : ℕ) : Char ⊕ Begun :=
  if b < 0x80 then .inl (Char.ofNat b)
  else if 0xC2 ≤ b ∧ b ≤ 0xDF then .inr ⟨b-0xC0,1,0x80,0xBF⟩
  else if 0xE0 ≤ b ∧ b ≤ 0xEF then
    .inr ⟨b-0xE0,2,if b = 0xE0 then 0xA0 else 0x80,if b = 0xED then 0x9F else 0xBF⟩
  else if 0xF0 ≤ b ∧ b ≤ 0xF4 then
    .inr ⟨b-0xF0,3,if b = 0xF0 then 0x90 else 0x80,if b = 0xF4 then 0x8F else 0xBF⟩
  else .inl replacement

/-- A byte that may follow. -/
def Begun.nextByte (begun : Begun) (b : ℕ) : Char ⊕ Begun :=
  let value := 64*begun.value+(b-0x80)
  if begun.lacks = 1 then .inl (Char.ofNat value) else .inr ⟨value,begun.lacks-1,0x80,0xBF⟩

/-- The characters completed, and the one begun. -/
def emit : Char ⊕ Begun → List Char×Option Begun
  | .inl c => ([c],none)
  | .inr begun => ([],some begun)

/-- A character begun is cut short. -/
def flush : Option Begun → List Char
  | none => []
  | some _ => [replacement]

/-- One byte more. -/
def feed (b : ℕ) : Option Begun → List Char×Option Begun
  | none => emit (firstByte b)
  | some begun =>
    if begun.low ≤ b ∧ b ≤ begun.high then emit (begun.nextByte b)
    else (replacement::(emit (firstByte b)).1,(emit (firstByte b)).2)

theorem length_emit (read : Char ⊕ Begun) :
    (emit read).1.length+(flush (emit read).2).length = 1 := by
  cases read <;> rfl

/-- A byte makes at most one character, counting those begun. -/
theorem length_feed_le (b : ℕ) (begun : Option Begun) :
    (feed b begun).1.length+(flush (feed b begun).2).length ≤ (flush begun).length+1 := by
  cases begun with
  | none => exact (length_emit (firstByte b)).le
  | some begun =>
    rw [feed]
    split
    · rw [length_emit]
      omega
    · have hfirst := length_emit (firstByte b)
      simp only [List.length_cons,flush,List.length_nil]
      simp only [flush] at hfirst
      omega

/-! ### Percent escapes -/

/-- The value of a hexadecimal digit. -/
def hexDigit (c : Char) : Option ℕ :=
  if '0' ≤ c ∧ c ≤ '9' then some (c.toNat - '0'.toNat)
  else if 'a' ≤ c ∧ c ≤ 'f' then some (c.toNat - 'a'.toNat+10)
  else if 'A' ≤ c ∧ c ≤ 'F' then some (c.toNat - 'A'.toNat+10)
  else none

/-- The byte three characters stand for. -/
def escaped (c a b : Char) : Option ℕ :=
  if c = '%' then (hexDigit a).bind (fun x => (hexDigit b).map (16*x+·)) else none

/-- A character outside of escapes, or the byte of an escape. -/
inductive Token where
  | char (c : Char)
  | byte (b : ℕ)

/-- A plus sign stands for a space. -/
def spaced (c : Char) : Char := if c = '+' then ' ' else c

/-- The tokens of a text. -/
def tokens : List Char → List Token
  | [] => []
  | [c] => [.char (spaced c)]
  | [c,d] => [.char (spaced c),.char (spaced d)]
  | c::a::b::rest =>
    match escaped c a b with
    | some x => .byte x::tokens rest
    | none => .char (spaced c)::tokens (a::b::rest)

/-- The text of tokens, after a character begun. -/
def decodeTokens : Option Begun → List Token → List Char
  | begun,[] => flush begun
  | begun,.char c::rest => flush begun++c::decodeTokens none rest
  | begun,.byte b::rest => (feed b begun).1++decodeTokens (feed b begun).2 rest

/-- The text that a text encodes. -/
def decode (text : List Char) : List Char := decodeTokens none (tokens text)

/-- A text that holds an escape. -/
def Escapes (text : List Char) : Prop :=
  ∃ a b, (hexDigit a).isSome ∧ (hexDigit b).isSome ∧ ['%',a,b] <:+: text

theorem escaped_isSome {c a b : Char} :
    (escaped c a b).isSome ↔ c = '%' ∧ (hexDigit a).isSome ∧ (hexDigit b).isSome := by
  unfold escaped
  split
  · rename_i hc
    cases hexDigit a <;> simp [hc]
  · rename_i hc
    simp [hc]

/-- An escape stands at the head of a text or behind it. -/
theorem escapes_cons {c a b : Char} {rest : List Char} :
    Escapes (c::a::b::rest) ↔ (escaped c a b).isSome ∨ Escapes (a::b::rest) := by
  constructor
  · rintro ⟨x,y,hx,hy,hinside⟩
    rcases List.infix_cons_iff.mp hinside with hhead | hlater
    · simp only [List.cons_prefix_cons] at hhead
      obtain ⟨rfl,rfl,rfl,-⟩ := hhead
      exact Or.inl (escaped_isSome.mpr ⟨rfl,hx,hy⟩)
    · exact Or.inr ⟨x,y,hx,hy,hlater⟩
  · rintro (h | ⟨x,y,hx,hy,hinside⟩)
    · obtain ⟨rfl,ha,hb⟩ := escaped_isSome.mp h
      exact ⟨a,b,ha,hb,⟨[],rest,rfl⟩⟩
    · exact ⟨x,y,hx,hy,hinside.trans (List.suffix_cons c _).isInfix⟩

/-- Text without percent signs in front holds no escape. -/
theorem escapes_append {before : List Char} (h : '%' ∉ before) (text : List Char) :
    Escapes (before++text) ↔ Escapes text := by
  induction before with
  | nil => rfl
  | cons c rest ih =>
    rw [List.mem_cons,not_or] at h
    rw [← ih h.2,List.cons_append]
    constructor
    · rintro ⟨a,b,ha,hb,hinside⟩
      rcases List.infix_cons_iff.mp hinside with hhead | hlater
      · exact absurd (List.cons_prefix_cons.mp hhead).1 h.1
      · exact ⟨a,b,ha,hb,hlater⟩
    · rintro ⟨a,b,ha,hb,hinside⟩
      exact ⟨a,b,ha,hb,hinside.trans (List.suffix_cons c _).isInfix⟩

theorem not_escapes_short {text : List Char} (h : text.length < 3) : ¬Escapes text := by
  rintro ⟨a,b,-,-,hinside⟩
  have hlen := hinside.length_le
  simp only [List.length_cons,List.length_nil] at hlen
  omega

theorem tokens_of_not_escapes {text : List Char} (h : ¬Escapes text) :
    tokens text = text.map (fun c => .char (spaced c)) := by
  fun_induction tokens text with
  | case1 => rfl
  | case2 => rfl
  | case3 => rfl
  | case4 c a b rest x hx =>
    exact absurd (escapes_cons.mpr (Or.inl (by rw [hx]; rfl))) h
  | case5 c a b rest hx ih =>
    rw [ih (fun hlater => h (escapes_cons.mpr (Or.inr hlater)))]
    rfl

theorem length_tokens_le (text : List Char) : (tokens text).length ≤ text.length := by
  fun_induction tokens text with
  | case1 => simp
  | case2 => simp
  | case3 => simp
  | case4 c a b rest x hx ih =>
    simp only [List.length_cons]
    omega
  | case5 c a b rest hx ih =>
    simp only [List.length_cons] at ih ⊢
    omega

theorem length_tokens_lt {text : List Char} (h : Escapes text) :
    (tokens text).length < text.length := by
  fun_induction tokens text with
  | case1 => exact absurd h (not_escapes_short (by simp))
  | case2 => exact absurd h (not_escapes_short (by simp))
  | case3 => exact absurd h (not_escapes_short (by simp))
  | case4 c a b rest x hx _ =>
    have hrest := length_tokens_le rest
    simp only [List.length_cons]
    omega
  | case5 c a b rest hx ih =>
    have hlater := (escapes_cons.mp h).resolve_left (by simp [hx])
    simpa using ih hlater

/-- Every token makes at most one character, counting those begun. -/
theorem length_decodeTokens_le (begun : Option Begun) (ts : List Token) :
    (decodeTokens begun ts).length ≤ (flush begun).length+ts.length := by
  induction ts generalizing begun with
  | nil => simp [decodeTokens]
  | cons t rest ih =>
    cases t with
    | char c =>
      have hrest := ih none
      simp only [decodeTokens,List.length_append,List.length_cons,flush,List.length_nil] at hrest ⊢
      omega
    | byte b =>
      have hrest := ih (feed b begun).2
      have hbyte := length_feed_le b begun
      simp only [decodeTokens,List.length_append,List.length_cons]
      omega

/-! ### Decoding -/

/-- Decoding never lengthens a text. -/
theorem length_decode_le (text : List Char) : (decode text).length ≤ text.length := by
  have htokens := length_tokens_le text
  have hdecode := length_decodeTokens_le none (tokens text)
  simp only [flush,List.length_nil] at hdecode
  rw [decode]
  omega

/-- It shortens a text with an escape. -/
theorem length_decode_lt {text : List Char} (h : Escapes text) :
    (decode text).length < text.length := by
  have htokens := length_tokens_lt h
  have hdecode := length_decodeTokens_le none (tokens text)
  simp only [flush,List.length_nil] at hdecode
  rw [decode]
  omega

/-- It replaces the plus signs of a text without escapes. -/
theorem decode_of_not_escapes {text : List Char} (h : ¬Escapes text) :
    decode text = text.map spaced := by
  rw [decode,tokens_of_not_escapes h]
  clear h
  induction text with
  | nil => rfl
  | cons c rest ih =>
    rw [List.map_cons,decodeTokens,ih]
    rfl

/-- A text with neither stands for itself. -/
theorem decode_plain {text : List Char} (hplus : '+' ∉ text) (hpercent : '%' ∉ text) :
    decode text = text := by
  rw [decode_of_not_escapes]
  · refine (List.map_congr_left (fun c hc => ?_)).trans (List.map_id text)
    exact if_neg (ne_of_mem_of_not_mem hc hplus)
  · rintro ⟨a,b,-,-,hinside⟩
    exact hpercent (hinside.subset (by simp))

/-! ### Parameters -/

/-- The query of a URL. -/
def query (url : List Char) : List Char :=
  ((url.takeWhile (· ≠ '#')).dropWhile (· ≠ '?')).drop 1

/-- The name and the value of a piece. -/
def parameter (piece : List Char) : List Char×List Char :=
  (decode (piece.takeWhile (· ≠ '=')),decode ((piece.dropWhile (· ≠ '=')).drop 1))

/-- The parameters of a query, in order. -/
def parameters (query : List Char) : List (List Char×List Char) :=
  ((query.splitOn '&').filter (· ≠ [])).map parameter

/-- What follows the question mark, up to the fragment. -/
theorem query_append {base : List Char} (hquestion : '?' ∉ base) (hhash : '#' ∉ base)
    (text : List Char) : query (base++ '?'::text) = text.takeWhile (· ≠ '#') := by
  obtain ⟨-,hdrop⟩ := takeWhile_stop hquestion (text.takeWhile (· ≠ '#'))
  rw [query,List.takeWhile_append_of_pos (runs_over hhash),
    List.takeWhile_cons_of_pos (by decide),hdrop]
  rfl

/-- A piece is cut at its first equals sign. -/
theorem parameter_append {name : List Char} (hname : '=' ∉ name) (value : List Char) :
    parameter (name++ '='::value) = (decode name,decode value) := by
  obtain ⟨htake,hdrop⟩ := takeWhile_stop hname value
  rw [parameter,htake,hdrop]
  rfl

/-- The first piece of a query and the rest. -/
theorem parameters_append {piece : List Char} (hne : piece ≠ []) (hpiece : '&' ∉ piece)
    (rest : List Char) : parameters (piece++ '&'::rest) = parameter piece::parameters rest := by
  rw [parameters,List.splitOn_append_cons_self_of_not_mem hpiece,
    List.filter_cons_of_pos (by simpa using hne)]
  rfl

/-- The last piece. -/
theorem parameters_single {piece : List Char} (hne : piece ≠ []) (hpiece : '&' ∉ piece) :
    parameters piece = [parameter piece] := by
  rw [parameters,List.splitOn_eq_singleton hpiece,
    List.filter_cons_of_pos (by simpa using hne)]
  rfl

/-- A name with its value in front of a separator. -/
theorem parameters_cons {name value : List Char} (hname : '=' ∉ name) (hn : '&' ∉ name)
    (hv : '&' ∉ value) (rest : List Char) :
    parameters (name++ '='::value++ '&'::rest) = (decode name,decode value)::parameters rest := by
  rw [parameters_append (by simp) (by simp [hn,hv]),parameter_append hname]

theorem head?_splitOn (text : List Char) :
    (text.splitOn '&').head? = some (text.takeWhile (· ≠ '&')) := by
  induction text with
  | nil => rfl
  | cons c rest ih =>
    rw [List.splitOn_cons_eq_if_modifyHead]
    by_cases hc : c = '&'
    · simp [hc]
    · obtain ⟨others,hsplit⟩ := List.head?_eq_some_iff.mp ih
      simp [hc,hsplit]

/-- The first parameter of a query is that of the piece before its first
separator. -/
theorem parameters_head? {text : List Char} (hne : text.takeWhile (· ≠ '&') ≠ []) :
    (parameters text).head? = some (parameter (text.takeWhile (· ≠ '&'))) := by
  obtain ⟨others,hsplit⟩ := List.head?_eq_some_iff.mp (head?_splitOn text)
  rw [parameters,hsplit,List.filter_cons_of_pos (by simpa using hne)]
  rfl

/-- A separator or a fragment ends a piece. -/
theorem takeWhile_separators {name : List Char} (hampersand : '&' ∉ name) (hhash : '#' ∉ name)
    (text rest : List Char) :
    ((name++text++ '&'::rest).takeWhile (· ≠ '#')).takeWhile (· ≠ '&') =
      name++text.takeWhile (fun c => c ≠ '&' ∧ c ≠ '#') := by
  have hboth : (fun c => decide (decide (c ≠ '&') = true ∧ decide (c ≠ '#') = true)) =
      fun c => decide (c ≠ '&' ∧ c ≠ '#') := by
    funext c
    simp
  have hpasses : ∀ c ∈ name, decide (c ≠ '&' ∧ c ≠ '#') = true := by
    intro c hc
    exact decide_eq_true
      ⟨ne_of_mem_of_not_mem hc hampersand,ne_of_mem_of_not_mem hc hhash⟩
  rw [List.takeWhile_takeWhile,hboth,List.append_assoc,List.takeWhile_append_of_pos hpasses]
  congr 1
  induction text with
  | nil => exact List.takeWhile_cons_of_neg (by decide)
  | cons c text ih => rw [List.cons_append,List.takeWhile_cons,List.takeWhile_cons,ih]

end Senca.FormEncoding
