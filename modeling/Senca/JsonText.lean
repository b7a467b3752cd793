import Mathlib.Data.List.Nodup
import Mathlib.Data.List.TakeWhile
import Senca.JsonValue

/-!
# JSON as text

Printers of JSON that differ in what they escape and where they put blanks,
and one reader of the grammar. Whatever a printer of the family writes, the
reader reads back: every text, also such that needs escapes or pairs of
surrogates, every integer that a double holds, every array and every object
whose keys differ. Nothing here refers to a particular program.
-/

namespace Senca.JsonText

open JsonValue

/-! ### Printers -/

/-- A blank between tokens. -/
def isBlank (c : Char) : Bool := c = ' ' || c = '\n' || c = '\t' || c = '\r'

/-- How a printer escapes and where it puts blanks; the depth counts the
brackets that are open. -/
structure Style where
  /-- Everything outside printable ASCII is escaped. -/
  ascii : Bool
  /-- After an opening bracket that is not closed at once. -/
  opening : ℕ → List Char
  /-- After a comma. -/
  between : ℕ → List Char
  /-- Before the closing bracket. -/
  closing : ℕ → List Char
  /-- After a colon. -/
  colon : List Char
  /-- The text of a number that is no integer. -/
  floatText : ℚ → List Char
  opening_blank : ∀ depth, ∀ c ∈ opening depth, isBlank c = true
  between_blank : ∀ depth, ∀ c ∈ between depth, isBlank c = true
  closing_blank : ∀ depth, ∀ c ∈ closing depth, isBlank c = true
  colon_blank : ∀ c ∈ colon, isBlank c = true

/-- A code unit as four hexadecimal digits. -/
def hexDigits (n : ℕ) : List Char :=
  [Nat.digitChar (n/4096%16),Nat.digitChar (n/256%16),Nat.digitChar (n/16%16),Nat.digitChar (n%16)]

/-- The escape of a code unit. -/
def escapeUnit (n : ℕ) : List Char := '\\':: 'u'::hexDigits n

/-- The UTF-16 code units of a character. -/
def utf16 (c : Char) : List ℕ :=
  if c.toNat < 65536 then [c.toNat]
  else [55296+(c.toNat-65536)/1024,56320+(c.toNat-65536)%1024]

/-- The letter of a short escape. -/
def shortEscape (c : Char) : Option Char :=
  if c = '"' then some '"'
  else if c = '\\' then some '\\'
  else if c = '\n' then some 'n'
  else if c = '\r' then some 'r'
  else if c = '\t' then some 't'
  else if c.toNat = 8 then some 'b'
  else if c.toNat = 12 then some 'f'
  else none

/-- A character inside quotes. -/
def escapeChar (ascii : Bool) (c : Char) : List Char :=
  match shortEscape c with
  | some letter => ['\\',letter]
  | none =>
    if c.toNat < 32 then escapeUnit c.toNat
    else if ascii && 127 ≤ c.toNat then (utf16 c).flatMap escapeUnit
    else [c]

/-- A text in quotes. -/
def quoted (ascii : Bool) (text : String) : List Char :=
  '"'::(text.toList.flatMap (escapeChar ascii)++['"'])

/-- An integer in decimal. -/
def intText (n : ℤ) : List Char :=
  if n < 0 then '-'::Nat.toDigits 10 n.natAbs else Nat.toDigits 10 n.natAbs

mutual

/-- A value, printed at a depth. -/
def print (style : Style) : ℕ → Json → List Char
  | _,.null => "null".toList
  | _,.bool b => if b then "true".toList else "false".toList
  | _,.int n => intText n
  | _,.float q => style.floatText q
  | _,.str text => quoted style.ascii text
  | _,.arr [] => ['[',']']
  | depth,.arr (item::rest) =>
    '['::(style.opening depth++print style (depth+1) item++printItems style depth rest)
  | _,.obj [] => ['\x7b','\x7d']
  | depth,.obj ((key,value)::rest) =>
    '\x7b'::(style.opening depth++quoted style.ascii key++ ':'::(style.colon++
      print style (depth+1) value++printMembers style depth rest))

/-- The other items of an array, and its end. -/
def printItems (style : Style) (depth : ℕ) : List Json → List Char
  | [] => style.closing depth++[']']
  | item::rest =>
    ','::(style.between depth++print style (depth+1) item++printItems style depth rest)

/-- The other members of an object, and its end. -/
def printMembers (style : Style) (depth : ℕ) : List (String×Json) → List Char
  | [] => style.closing depth++['\x7d']
  | (key,value)::rest =>
    ','::(style.between depth++quoted style.ascii key++ ':'::(style.colon++
      print style (depth+1) value++printMembers style depth rest))

end

/-! ### The reader -/

/-- The value of a hexadecimal digit. -/
def hexValue (c : Char) : Option ℕ :=
  if '0' ≤ c ∧ c ≤ '9' then some (c.toNat-48)
  else if 'a' ≤ c ∧ c ≤ 'f' then some (c.toNat-87)
  else if 'A' ≤ c ∧ c ≤ 'F' then some (c.toNat-55)
  else none

/-- The character a short escape stands for. -/
def unescape (letter : Char) : Option ℕ :=
  if letter = '"' then some 34
  else if letter = '\\' then some 92
  else if letter = '/' then some 47
  else if letter = 'n' then some 10
  else if letter = 'r' then some 13
  else if letter = 't' then some 9
  else if letter = 'b' then some 8
  else if letter = 'f' then some 12
  else none

/-- The code units up to the closing quote, and what follows it. -/
def readUnits : List Char → Option (List ℕ×List Char)
  | [] => none
  | c::rest =>
    if c = '"' then some ([],rest)
    else if c = '\\' then
      match rest with
      | 'u'::a::b::d::e::rest => do
        let a ← hexValue a
        let b ← hexValue b
        let d ← hexValue d
        let e ← hexValue e
        let (units,rest) ← readUnits rest
        some ((a*4096+b*256+d*16+e)::units,rest)
      | letter::rest => do
        let unit ← unescape letter
        let (units,rest) ← readUnits rest
        some (unit::units,rest)
      | [] => none
    else if c.toNat < 32 then none
    else do
      let (units,rest) ← readUnits rest
      some (utf16 c++units,rest)

/-- The text with these code units, none when a surrogate stands alone. -/
def decodeUtf16 : List ℕ → Option (List Char)
  | [] => some []
  | unit::units =>
    if 55296 ≤ unit ∧ unit < 56320 then
      match units with
      | low::units =>
        if 56320 ≤ low ∧ low < 57344 then do
          let text ← decodeUtf16 units
          some (Char.ofNat (65536+(unit-55296)*1024+(low-56320))::text)
        else none
      | [] => none
    else if 56320 ≤ unit ∧ unit < 57344 then none
    else do
      let text ← decodeUtf16 units
      some (Char.ofNat unit::text)

/-- A string after its opening quote. -/
def readString (text : List Char) : Option (String×List Char) := do
  let (units,rest) ← readUnits text
  let chars ← decodeUtf16 units
  some (String.ofList chars,rest)

/-- A character of a number. -/
def isNumeric (c : Char) : Bool :=
  c.isDigit || c = '-' || c = '+' || c = '.' || c = 'e' || c = 'E'

/-- The digits of an integer: at least one, and no leading zero. -/
def natural? (digits : List Char) : Option ℕ :=
  match digits with
  | [] => none
  | first::rest =>
    if digits.all Char.isDigit && (first ≠ '0' || rest.isEmpty) then
      some (Nat.ofDigitChars 10 digits 0)
    else none

/-- A token without fraction or exponent. -/
def integer? : List Char → Option ℤ
  | '-'::digits => (natural? digits).map (fun n : ℕ => -(n : ℤ))
  | digits => (natural? digits).map (fun n : ℕ => (n : ℤ))

/-- The value of a number, where doubles hold every integer up to 2^53 and a
parameter reads the rest. -/
def readNumber (decimal : List Char → Option Json) (token : List Char) : Option Json :=
  match integer? token with
  | some n => if n.natAbs ≤ 2^53 then some (.int n) else decimal token
  | none => decimal token

/-- Write a property: a key that is there keeps its place. -/
def putMember (members : List (String×Json)) (key : String) (value : Json) :
    List (String×Json) :=
  if (members.lookup key).isSome then
    members.map (fun m => if m.1 = key then (key,value) else m)
  else members++[(key,value)]

/-- An object of members read in order. -/
def ofMembers (members : List (String×Json)) : Json :=
  .obj (members.foldl (fun properties m => putMember properties m.1 m.2) [])

/-- The text after its blanks. -/
def skipBlank (text : List Char) : List Char := text.dropWhile isBlank

mutual

/-- One value at the beginning of a text, and what follows it; the fuel bounds
the nesting and the lengths. -/
def readValue (decimal : List Char → Option Json) : ℕ → List Char → Option (Json×List Char)
  | 0,_ => none
  | fuel+1,text =>
    match skipBlank text with
    | '"'::rest => do
      let (text,rest) ← readString rest
      some (.str text,rest)
    | '['::rest =>
      match skipBlank rest with
      | ']'::rest => some (.arr [],rest)
      | _ => do
        let (items,rest) ← readItems decimal fuel rest
        some (.arr items,rest)
    | '\x7b'::rest =>
      match skipBlank rest with
      | '\x7d'::rest => some (.obj [],rest)
      | _ => do
        let (members,rest) ← readMembers decimal fuel rest
        some (ofMembers members,rest)
    | 'n':: 'u':: 'l':: 'l'::rest => some (.null,rest)
    | 't':: 'r':: 'u':: 'e'::rest => some (.bool true,rest)
    | 'f':: 'a':: 'l':: 's':: 'e'::rest => some (.bool false,rest)
    | text => do
      let value ← readNumber decimal (text.takeWhile isNumeric)
      some (value,text.dropWhile isNumeric)

/-- The items of an array up to its end. -/
def readItems (decimal : List Char → Option Json) : ℕ → List Char → Option (List Json×List Char)
  | 0,_ => none
  | fuel+1,text => do
    let (item,rest) ← readValue decimal fuel text
    match skipBlank rest with
    | ','::rest => do
      let (items,rest) ← readItems decimal fuel rest
      some (item::items,rest)
    | ']'::rest => some ([item],rest)
    | _ => none

/-- The members of an object up to its end. -/
def readMembers (decimal : List Char → Option Json) :
    ℕ → List Char → Option (List (String×Json)×List Char)
  | 0,_ => none
  | fuel+1,text =>
    match skipBlank text with
    | '"'::rest => do
      let (key,rest) ← readString rest
      match skipBlank rest with
      | ':'::rest => do
        let (value,rest) ← readValue decimal fuel rest
        match skipBlank rest with
        | ','::rest => do
          let (members,rest) ← readMembers decimal fuel rest
          some ((key,value)::members,rest)
        | '\x7d'::rest => some ([(key,value)],rest)
        | _ => none
      | _ => none
    | _ => none

end

/-- A whole text. -/
def parse (decimal : List Char → Option Json) (text : List Char) : Option Json :=
  match readValue decimal (2*text.length+2) text with
  | some (value,rest) => if skipBlank rest = [] then some value else none
  | none => none

/-! ### Lengths -/

/-- The length of a text in UTF-8. -/
def byteLength : List Char → ℕ
  | [] => 0
  | c::text => c.utf8Size+byteLength text

@[simp] theorem byteLength_nil : byteLength [] = 0 := rfl

@[simp] theorem byteLength_cons (c : Char) (text : List Char) :
    byteLength (c::text) = c.utf8Size+byteLength text := rfl

@[simp] theorem byteLength_append (text more : List Char) :
    byteLength (text++more) = byteLength text+byteLength more := by
  induction text with
  | nil => simp
  | cons c text ih => rw [List.cons_append,byteLength_cons,byteLength_cons,ih,Nat.add_assoc]

theorem byteLength_escapeUnit (n : ℕ) : byteLength (escapeUnit n) = 6 := by
  have hdigit : ∀ m < 16, (Nat.digitChar m).utf8Size = 1 := by decide
  have hmod : ∀ m, (Nat.digitChar (m%16)).utf8Size = 1 := fun m =>
    hdigit _ (Nat.mod_lt _ (by decide))
  have hu : ('\\').utf8Size = 1 ∧ ('u').utf8Size = 1 := by decide
  simp [escapeUnit,hexDigits,hmod,hu.1,hu.2]

/-- An escaped character takes at most two units of six bytes. -/
theorem byteLength_escapeChar (c : Char) : byteLength (escapeChar true c) ≤ 12 := by
  rw [escapeChar]
  split
  · rename_i letter hletter
    have hshort : letter.utf8Size = 1 := by
      simp only [shortEscape] at hletter
      split_ifs at hletter
      all_goals cases hletter
      all_goals rfl
    have hslash : ('\\').utf8Size = 1 := rfl
    simp [hshort,hslash]
  · split_ifs
    · rw [byteLength_escapeUnit]
      decide
    · rw [utf16]
      split_ifs
      · simp [byteLength_escapeUnit]
      · simp [byteLength_escapeUnit]
    · have hc := c.utf8Size_le_four
      simp only [byteLength_cons,byteLength_nil]
      omega

theorem byteLength_quoted (text : String) : byteLength (quoted true text) ≤ 2+12*text.length := by
  have hchars : ∀ chars : List Char,
      byteLength (chars.flatMap (escapeChar true)) ≤ 12*chars.length := by
    intro chars
    induction chars with
    | nil => exact Nat.zero_le _
    | cons c chars ih =>
      have hc := byteLength_escapeChar c
      rw [List.flatMap_cons,byteLength_append,List.length_cons]
      omega
  have htext := hchars text.toList
  have hquote : ('"').utf8Size = 1 := rfl
  rw [String.length_toList] at htext
  simp only [quoted,byteLength_cons,byteLength_append,byteLength_nil,hquote]
  omega

/-! ### Strings are read back -/

theorem hexValue_digitChar : ∀ n < 16, hexValue (Nat.digitChar n) = some n := by decide

/-- An escaped code unit. -/
theorem readUnits_escapeUnit {n : ℕ} (h : n < 65536) (rest : List Char) :
    readUnits (escapeUnit n++rest) = (readUnits rest).map (fun r => (n::r.1,r.2)) := by
  have hsplit : n/4096%16*4096+n/256%16*256+n/16%16*16+n%16 = n := by omega
  have hdigit : ∀ m, hexValue (Nat.digitChar (m%16)) = some (m%16) := fun m =>
    hexValue_digitChar _ (Nat.mod_lt _ (by decide))
  rw [escapeUnit,hexDigits,List.cons_append,List.cons_append,readUnits.eq_def]
  cases hread : readUnits rest <;> simp [hdigit,hsplit,hread]

/-- No character is a surrogate. -/
theorem char_range (c : Char) :
    c.toNat < 55296 ∨ (57343 < c.toNat ∧ c.toNat < 1114112) := c.valid

theorem unescape_shortEscape {c letter : Char} (h : shortEscape c = some letter) :
    letter ≠ 'u' ∧ unescape letter = some c.toNat ∧ c.toNat < 128 := by
  simp only [shortEscape] at h
  split_ifs at h with h1 h2 h3 h4 h5 h6 h7
  all_goals cases h
  · subst h1; decide
  · subst h2; decide
  · subst h3; decide
  · subst h4; decide
  · subst h5; decide
  · rw [h6]; decide
  · rw [h7]; decide

theorem readUnits_escapeChar (ascii : Bool) (c : Char) (rest : List Char) :
    readUnits (escapeChar ascii c++rest) =
      (readUnits rest).map (fun r => (utf16 c++r.1,r.2)) := by
  rw [escapeChar]
  cases hshort : shortEscape c with
  | some letter =>
    obtain ⟨hu,hletter,hsmall⟩ := unescape_shortEscape hshort
    have hone : utf16 c = [c.toNat] := if_pos (by omega)
    rw [hone,List.cons_append,readUnits.eq_def]
    cases hread : readUnits rest <;> simp [hu,hletter,hread]
  | none =>
    dsimp only
    split_ifs with hctrl hascii
    · have hone : utf16 c = [c.toNat] := if_pos (by omega)
      rw [hone,readUnits_escapeUnit (by omega)]
      rfl
    · rw [utf16]
      have hc := char_range c
      split_ifs with hbmp
      · rw [List.flatMap_singleton,readUnits_escapeUnit hbmp]
        rfl
      · rw [List.flatMap_cons,List.flatMap_singleton,List.append_assoc,
          readUnits_escapeUnit (by omega),readUnits_escapeUnit (by omega),Option.map_map]
        rfl
    · have hplain : c ≠ '"' ∧ c ≠ '\\' := by
        constructor <;> rintro rfl <;> simp [shortEscape] at hshort
      rw [List.singleton_append,readUnits.eq_def]
      cases hread : readUnits rest <;> simp [hplain.1,hplain.2,hctrl,hread]

theorem decodeUtf16_utf16 (c : Char) (units : List ℕ) :
    decodeUtf16 (utf16 c++units) = (decodeUtf16 units).map (c::·) := by
  have hrange := char_range c
  rw [utf16]
  split_ifs with hbmp
  · have hlead : ¬(55296 ≤ c.toNat ∧ c.toNat < 56320) := by omega
    have htrail : ¬(56320 ≤ c.toNat ∧ c.toNat < 57344) := by omega
    rw [List.singleton_append,decodeUtf16.eq_def]
    cases hread : decodeUtf16 units <;> simp [hlead,htrail,Char.ofNat_toNat,hread]
  · have hlead : 55296 ≤ 55296+(c.toNat-65536)/1024 ∧ 55296+(c.toNat-65536)/1024 < 56320 := by
      omega
    have htrail : 56320 ≤ 56320+(c.toNat-65536)%1024 ∧
        56320+(c.toNat-65536)%1024 < 57344 := by
      omega
    have hjoin : 65536+(55296+(c.toNat-65536)/1024-55296)*1024+
        (56320+(c.toNat-65536)%1024-56320) = c.toNat := by
      omega
    rw [List.cons_append,List.singleton_append,decodeUtf16.eq_def]
    dsimp only
    rw [if_pos hlead,if_pos htrail,hjoin,Char.ofNat_toNat]
    cases decodeUtf16 units <;> rfl

theorem readUnits_flatMap (ascii : Bool) (text rest : List Char) :
    readUnits (text.flatMap (escapeChar ascii)++ '"'::rest) = some (text.flatMap utf16,rest) := by
  induction text with
  | nil =>
    rw [List.flatMap_nil,List.nil_append,readUnits.eq_def]
    rfl
  | cons c text ih =>
    rw [List.flatMap_cons,List.append_assoc,readUnits_escapeChar,ih]
    rfl

theorem decodeUtf16_flatMap (text : List Char) :
    decodeUtf16 (text.flatMap utf16) = some text := by
  induction text with
  | nil => rfl
  | cons c text ih =>
    rw [List.flatMap_cons,decodeUtf16_utf16,ih]
    rfl

/-- A quoted text, without its opening quote. -/
theorem readString_quoted (ascii : Bool) (text : String) (rest : List Char) :
    readString (text.toList.flatMap (escapeChar ascii)++ '"'::rest) = some (text,rest) := by
  rw [readString,readUnits_flatMap]
  simp [decodeUtf16_flatMap]

/-! ### Numbers are read back -/

/-- The first digit of a positive number. -/
theorem head_toDigits {n : ℕ} (h : 0 < n) : (Nat.toDigits 10 n).head? ≠ some '0' := by
  induction n using Nat.strong_induction_on with
  | _ n ih =>
    rw [Nat.toDigits_eq_if (by decide)]
    split_ifs with hsmall
    · have hdigit : ∀ m < 10, 0 < m → [Nat.digitChar m].head? ≠ some '0' := by decide
      exact hdigit n hsmall h
    · rw [List.head?_append_of_ne_nil _ Nat.toDigits_ne_nil]
      exact ih (n/10) (by omega) (by omega)

theorem natural_toDigits (n : ℕ) : natural? (Nat.toDigits 10 n) = some n := by
  have hdigits : (Nat.toDigits 10 n).all Char.isDigit = true :=
    List.all_eq_true.mpr fun _ hc => Nat.isDigit_of_mem_toDigits (by decide) (by decide) hc
  have hvalue := @Nat.ofDigitChars_ten_toDigits n
  have hhead : n = 0 ∨ (Nat.toDigits 10 n).head? ≠ some '0' :=
    n.eq_zero_or_pos.imp_right head_toDigits
  cases hn : Nat.toDigits 10 n with
  | nil => exact absurd hn Nat.toDigits_ne_nil
  | cons first rest =>
    rw [hn] at hdigits hvalue
    rw [natural?,hdigits,hvalue,Bool.true_and]
    rcases hhead with rfl | hhead
    · rw [Nat.toDigits_zero] at hn
      cases hn
      rfl
    · rw [hn,List.head?_cons,ne_eq,Option.some.injEq] at hhead
      simp [hhead]

theorem toDigits_numeric (n : ℕ) : ∀ c ∈ Nat.toDigits 10 n, isNumeric c = true := fun c hc => by
  have hdigit : c.isDigit = true := Nat.isDigit_of_mem_toDigits (by decide) (by decide) hc
  simp [isNumeric,hdigit]

theorem integer_toDigits (n : ℕ) : integer? (Nat.toDigits 10 n) = some (n : ℤ) := by
  rw [integer?.eq_2,natural_toDigits]
  · rfl
  · intro digits hn
    have hsign : '-'.isDigit = true :=
      Nat.isDigit_of_mem_toDigits (by decide) (by decide) (hn ▸ List.mem_cons_self)
    exact absurd hsign (by decide)

theorem integer_intText (n : ℤ) : integer? (intText n) = some n := by
  rw [intText]
  split_ifs with hneg
  · rw [integer?,natural_toDigits,Option.map_some]
    congr 1
    omega
  · rw [integer_toDigits]
    congr 1
    omega

theorem intText_numeric (n : ℤ) : ∀ c ∈ intText n, isNumeric c = true := by
  rw [intText]
  split_ifs
  · exact List.forall_mem_cons.mpr ⟨rfl,toDigits_numeric _⟩
  · exact toDigits_numeric _

theorem intText_ne_nil (n : ℤ) : intText n ≠ [] := by
  rw [intText]
  split_ifs
  · exact List.cons_ne_nil _ _
  · exact Nat.toDigits_ne_nil

/-! ### Values are read back -/

/-- A number whose text the reader reads as that number. -/
def ExactFloat (style : Style) (decimal : List Char → Option Json) (q : ℚ) : Prop :=
  (∀ c ∈ style.floatText q, isNumeric c = true) ∧ style.floatText q ≠ [] ∧
    readNumber decimal (style.floatText q) = some (.float q)

mutual

/-- A value whose text is read as that value: its integers are those a double
holds, and no object names a key twice. -/
def Portable (style : Style) (decimal : List Char → Option Json) : Json → Prop
  | .null => True
  | .bool _ => True
  | .int n => n.natAbs ≤ 2^53
  | .float q => ExactFloat style decimal q
  | .str _ => True
  | .arr items => PortableItems style decimal items
  | .obj members => (members.map Prod.fst).Nodup ∧ PortableMembers style decimal members

/-- So are all items. -/
def PortableItems (style : Style) (decimal : List Char → Option Json) : List Json → Prop
  | [] => True
  | item::rest => Portable style decimal item ∧ PortableItems style decimal rest

/-- So are all members. -/
def PortableMembers (style : Style) (decimal : List Char → Option Json) :
    List (String×Json) → Prop
  | [] => True
  | (_,value)::rest => Portable style decimal value ∧ PortableMembers style decimal rest

end

theorem skipBlank_append {blanks : List Char} (h : ∀ c ∈ blanks, isBlank c = true)
    (text : List Char) : skipBlank (blanks++text) = skipBlank text := by
  rw [skipBlank,List.dropWhile_append,List.dropWhile_eq_nil_iff.mpr h]
  rfl

theorem skipBlank_cons {c : Char} (h : isBlank c = false) (text : List Char) :
    skipBlank (c::text) = c::text := List.dropWhile_cons_of_neg (by simp [h])

/-- What can follow a value inside a text. -/
def Ended (rest : List Char) : Prop := ∀ c ∈ rest.head?, isNumeric c = false

theorem takeWhile_token {token rest : List Char} (h : ∀ c ∈ token, isNumeric c = true)
    (hrest : Ended rest) : (token++rest).takeWhile isNumeric = token := by
  rw [List.takeWhile_append_of_pos h]
  cases rest with
  | nil => simp
  | cons c rest => rw [List.takeWhile_cons_of_neg (by simp [hrest c rfl]),List.append_nil]

theorem dropWhile_token {token rest : List Char} (h : ∀ c ∈ token, isNumeric c = true)
    (hrest : Ended rest) : (token++rest).dropWhile isNumeric = rest := by
  rw [List.dropWhile_append_of_pos h]
  cases rest with
  | nil => rfl
  | cons c rest => exact List.dropWhile_cons_of_neg (by simp [hrest c rfl])

theorem putMember_new {members : List (String×Json)} {key : String} {value : Json}
    (h : key ∉ members.map Prod.fst) : putMember members key value = members++[(key,value)] := by
  have hlookup : members.lookup key = none := by
    rw [List.lookup_eq_none_iff]
    intro m hm
    have hkey : key ≠ m.1 := fun hkey => h (hkey ▸ List.mem_map_of_mem hm)
    simpa using hkey
  rw [putMember,hlookup]
  rfl

theorem ofMembers_nodup {members : List (String×Json)} (h : (members.map Prod.fst).Nodup) :
    ofMembers members = .obj members := by
  have hfold : ∀ done : List (String×Json), ((done++members).map Prod.fst).Nodup →
      members.foldl (fun properties m => putMember properties m.1 m.2) done = done++members := by
    clear h
    induction members with
    | nil => exact fun done _ => (List.append_nil done).symm
    | cons m members ih =>
      intro done hdone
      have hnew : m.1 ∉ done.map Prod.fst := by
        rw [List.map_append,List.map_cons] at hdone
        exact fun hm => List.disjoint_of_nodup_append hdone hm List.mem_cons_self
      rw [List.foldl_cons,putMember_new hnew,ih _ (by simpa using hdone)]
      simp
  rw [ofMembers,hfold [] h,List.nil_append]

theorem numeric_ne {c d : Char} (h : isNumeric c = true) (hd : isNumeric d = false) : c ≠ d :=
  fun hcd => by simp [← hcd,h] at hd

theorem numeric_notBlank {c : Char} (h : isNumeric c = true) : isBlank c = false := by
  simp [isBlank,numeric_ne h (d := ' ') rfl,numeric_ne h (d := '\n') rfl,
    numeric_ne h (d := '\t') rfl,numeric_ne h (d := '\r') rfl]

/-- A token is read as a number, being none of the other things. -/
theorem readValue_token (decimal : List Char → Option Json) (fuel : ℕ)
    {token rest : List Char} (h : ∀ c ∈ token, isNumeric c = true) (hne : token ≠ [])
    (hrest : Ended rest) : readValue decimal (fuel+1) (token++rest) =
      (readNumber decimal token).map (fun value => (value,rest)) := by
  have htake := takeWhile_token h hrest
  have hdrop := dropWhile_token h hrest
  cases token with
  | nil => exact absurd rfl hne
  | cons c token =>
    have hc : isNumeric c = true := h c List.mem_cons_self
    rw [List.cons_append] at htake hdrop ⊢
    rw [readValue,skipBlank_cons (numeric_notBlank hc)]
    split
    case _ heq => exact absurd (List.cons.inj heq).1 (numeric_ne hc rfl)
    case _ heq => exact absurd (List.cons.inj heq).1 (numeric_ne hc rfl)
    case _ heq => exact absurd (List.cons.inj heq).1 (numeric_ne hc rfl)
    case _ heq => exact absurd (List.cons.inj heq).1 (numeric_ne hc rfl)
    case _ heq => exact absurd (List.cons.inj heq).1 (numeric_ne hc rfl)
    case _ heq => exact absurd (List.cons.inj heq).1 (numeric_ne hc rfl)
    case _ =>
      rw [htake,hdrop,Option.map_eq_bind]
      rfl

/-- A value begins with neither a blank nor the end of an array. -/
theorem print_head {style : Style} {decimal : List Char → Option Json} (depth : ℕ) {value : Json}
    (h : Portable style decimal value) :
    ∃ c text, print style depth value = c::text ∧ isBlank c = false ∧ c ≠ ']' := by
  have htoken : ∀ token : List Char, (∀ c ∈ token, isNumeric c = true) → token ≠ [] →
      ∃ c text, token = c::text ∧ isBlank c = false ∧ c ≠ ']' := fun token htoken hne => by
    cases token with
    | nil => exact absurd rfl hne
    | cons c text =>
      have hc : isNumeric c = true := htoken c List.mem_cons_self
      exact ⟨c,text,rfl,numeric_notBlank hc,numeric_ne hc rfl⟩
  cases value with
  | null => exact ⟨_,_,rfl,rfl,by decide⟩
  | bool b => cases b <;> exact ⟨_,_,rfl,rfl,by decide⟩
  | int n => exact htoken _ (intText_numeric n) (intText_ne_nil n)
  | float q =>
    rw [Portable] at h
    exact htoken _ h.1 h.2.1
  | str text => exact ⟨_,_,rfl,rfl,by decide⟩
  | arr items => cases items <;> exact ⟨_,_,rfl,rfl,by decide⟩
  | obj members => cases members <;> exact ⟨_,_,rfl,rfl,by decide⟩

theorem readValue_blank (decimal : List Char → Option Json) (fuel : ℕ) {blanks : List Char}
    (h : ∀ c ∈ blanks, isBlank c = true) (text : List Char) :
    readValue decimal fuel (blanks++text) = readValue decimal fuel text := by
  cases fuel with
  | zero => rfl
  | succ fuel => rw [readValue,readValue,skipBlank_append h]

theorem readItems_blank (decimal : List Char → Option Json) (fuel : ℕ) {blanks : List Char}
    (h : ∀ c ∈ blanks, isBlank c = true) (text : List Char) :
    readItems decimal fuel (blanks++text) = readItems decimal fuel text := by
  cases fuel with
  | zero => rfl
  | succ fuel => rw [readItems,readItems,readValue_blank decimal fuel h]

theorem readMembers_blank (decimal : List Char → Option Json) (fuel : ℕ) {blanks : List Char}
    (h : ∀ c ∈ blanks, isBlank c = true) (text : List Char) :
    readMembers decimal fuel (blanks++text) = readMembers decimal fuel text := by
  cases fuel with
  | zero => rfl
  | succ fuel => rw [readMembers,readMembers,skipBlank_append h]

theorem ended_blank {blanks rest : List Char} (h : ∀ c ∈ blanks, isBlank c = true)
    (hrest : Ended rest) : Ended (blanks++rest) := by
  cases blanks with
  | nil => exact hrest
  | cons c blanks =>
    intro d hd
    cases hd
    by_contra hnum
    simp [numeric_notBlank (Bool.eq_true_of_not_eq_false hnum)] at h

section RoundTrip

variable {style : Style} {decimal : List Char → Option Json}

/-- At every depth, and with fuel for every character, the text of the value is
read as the value. -/
def ReadsBack (style : Style) (decimal : List Char → Option Json) (value : Json) : Prop :=
  ∀ (depth fuel : ℕ) (rest : List Char), (print style depth value).length ≤ fuel → Ended rest →
    readValue decimal fuel (print style depth value++rest) = some (value,rest)

theorem ended_printItems (depth : ℕ) (items : List Json) (rest : List Char) :
    Ended (printItems style depth items++rest) := by
  cases items with
  | nil =>
    rw [printItems,List.append_assoc]
    exact ended_blank (style.closing_blank depth) (by rintro c ⟨⟩; rfl)
  | cons item items => rintro c ⟨⟩; rfl

theorem ended_printMembers (depth : ℕ) (members : List (String×Json)) (rest : List Char) :
    Ended (printMembers style depth members++rest) := by
  cases members with
  | nil =>
    rw [printMembers,List.append_assoc]
    exact ended_blank (style.closing_blank depth) (by rintro c ⟨⟩; rfl)
  | cons m members => rintro c ⟨⟩; rfl

theorem readItems_last {fuel : ℕ} {text rest rest' : List Char} {item : Json}
    (hvalue : readValue decimal fuel text = some (item,rest))
    (hend : skipBlank rest = ']'::rest') :
    readItems decimal (fuel+1) text = some ([item],rest') := by
  simp [readItems,hvalue,hend]

theorem readItems_more {fuel : ℕ} {text rest rest' rest'' : List Char} {item : Json}
    {items : List Json} (hvalue : readValue decimal fuel text = some (item,rest))
    (hnext : skipBlank rest = ','::rest')
    (hitems : readItems decimal fuel rest' = some (items,rest'')) :
    readItems decimal (fuel+1) text = some (item::items,rest'') := by
  simp [readItems,hvalue,hnext,hitems]

theorem readMembers_last {fuel : ℕ} {text rest rest' : List Char} (key : String) {value : Json}
    (hvalue : readValue decimal fuel text = some (value,rest))
    (hend : skipBlank rest = '\x7d'::rest') :
    readMembers decimal (fuel+1) (quoted style.ascii key++ ':'::text) =
      some ([(key,value)],rest') := by
  rw [readMembers,quoted,List.cons_append,skipBlank_cons rfl]
  simp [readString_quoted,skipBlank_cons,isBlank,hvalue,hend]

theorem readMembers_more {fuel : ℕ} {text rest rest' rest'' : List Char} (key : String)
    {value : Json} {members : List (String×Json)}
    (hvalue : readValue decimal fuel text = some (value,rest))
    (hnext : skipBlank rest = ','::rest')
    (hmembers : readMembers decimal fuel rest' = some (members,rest'')) :
    readMembers decimal (fuel+1) (quoted style.ascii key++ ':'::text) =
      some ((key,value)::members,rest'') := by
  rw [readMembers,quoted,List.cons_append,skipBlank_cons rfl]
  simp [readString_quoted,skipBlank_cons,isBlank,hvalue,hnext,hmembers]

/-- By induction on the items after the first. -/
theorem readItems_print {first : Json} {items : List Json} (hfirst : ReadsBack style decimal first)
    (h : ∀ item ∈ items, ReadsBack style decimal item) (depth fuel : ℕ) (rest : List Char)
    (hfuel : (print style (depth+1) first++printItems style depth items).length ≤ fuel) :
    readItems decimal fuel (print style (depth+1) first++(printItems style depth items++rest)) =
      some (first::items,rest) := by
  induction items generalizing first fuel with
  | nil =>
    cases fuel with
    | zero => simp [printItems] at hfuel
    | succ fuel =>
      simp only [printItems,List.length_append,List.length_singleton] at hfuel
      have hvalue := hfirst (depth+1) fuel _ (by omega) (@ended_printItems style depth [] rest)
      have hend : skipBlank (printItems style depth []++rest) = ']'::rest := by
        rw [printItems,List.append_assoc,skipBlank_append (style.closing_blank depth)]
        exact skipBlank_cons rfl rest
      exact readItems_last hvalue hend
  | cons item items ih =>
    cases fuel with
    | zero => simp [printItems] at hfuel
    | succ fuel =>
      simp only [printItems,List.length_append,List.length_cons] at hfuel
      have hvalue := hfirst (depth+1) fuel _ (by omega)
        (@ended_printItems style depth (item::items) rest)
      have hnext : skipBlank (printItems style depth (item::items)++rest) =
          ','::(style.between depth++(print style (depth+1) item++
            (printItems style depth items++rest))) := by
        rw [printItems,List.cons_append,skipBlank_cons rfl,List.append_assoc,List.append_assoc]
      have hitems := ih (h item List.mem_cons_self)
        (fun it hit => h it (List.mem_cons_of_mem _ hit)) fuel (by
          rw [List.length_append]
          omega)
      rw [← readItems_blank decimal fuel (style.between_blank depth)] at hitems
      exact readItems_more hvalue hnext hitems

/-- By induction on the members after the first. -/
theorem readMembers_print {key : String} {value : Json} {members : List (String×Json)}
    (hvalue : ReadsBack style decimal value)
    (h : ∀ m ∈ members, ReadsBack style decimal m.2) (depth fuel : ℕ) (rest : List Char)
    (hfuel : (quoted style.ascii key++ ':'::(style.colon++
      print style (depth+1) value++printMembers style depth members)).length ≤ fuel) :
    readMembers decimal fuel (quoted style.ascii key++ ':'::(style.colon++
      (print style (depth+1) value++(printMembers style depth members++rest)))) =
      some ((key,value)::members,rest) := by
  induction members generalizing key value fuel with
  | nil =>
    cases fuel with
    | zero => simp at hfuel
    | succ fuel =>
      simp only [printMembers,List.length_append,List.length_cons] at hfuel
      have hread := hvalue (depth+1) fuel _ (by omega) (@ended_printMembers style depth [] rest)
      have hend : skipBlank (printMembers style depth []++rest) = '\x7d'::rest := by
        rw [printMembers,List.append_assoc,skipBlank_append (style.closing_blank depth)]
        exact skipBlank_cons rfl rest
      rw [← readValue_blank decimal fuel style.colon_blank] at hread
      exact readMembers_last key hread hend
  | cons m members ih =>
    obtain ⟨nextKey,nextValue⟩ := m
    cases fuel with
    | zero => simp at hfuel
    | succ fuel =>
      simp only [printMembers,List.length_append,List.length_cons] at hfuel
      have hread := hvalue (depth+1) fuel _ (by omega)
        (@ended_printMembers style depth ((nextKey,nextValue)::members) rest)
      have hnext : skipBlank (printMembers style depth ((nextKey,nextValue)::members)++rest) =
          ','::(style.between depth++(quoted style.ascii nextKey++ ':'::(style.colon++
            (print style (depth+1) nextValue++(printMembers style depth members++rest))))) := by
        rw [printMembers,List.cons_append,skipBlank_cons rfl]
        simp only [List.append_assoc,List.cons_append]
      have hmembers := @ih nextKey nextValue (h _ List.mem_cons_self)
        (fun m hm => h m (List.mem_cons_of_mem _ hm)) fuel (by
          simp only [List.length_append,List.length_cons]
          omega)
      rw [← readValue_blank decimal fuel style.colon_blank] at hread
      rw [← readMembers_blank decimal fuel (style.between_blank depth)] at hmembers
      exact readMembers_more key hread hnext hmembers

theorem readValue_arr {fuel : ℕ} {text rest : List Char} {items : List Json}
    (hhead : (skipBlank text).head? ≠ some ']')
    (hitems : readItems decimal fuel text = some (items,rest)) :
    readValue decimal (fuel+1) ('['::text) = some (.arr items,rest) := by
  rw [readValue,skipBlank_cons rfl]
  cases htext : skipBlank text with
  | nil => simp [htext,hitems]
  | cons c after =>
    have hc : c ≠ ']' := fun hc => hhead (by rw [htext,hc]; rfl)
    simp [htext,hc,hitems]

theorem readValue_obj {fuel : ℕ} {text rest : List Char} {members : List (String×Json)}
    (hhead : (skipBlank text).head? ≠ some '\x7d')
    (hmembers : readMembers decimal fuel text = some (members,rest)) :
    readValue decimal (fuel+1) ('\x7b'::text) = some (ofMembers members,rest) := by
  rw [readValue,skipBlank_cons rfl]
  cases htext : skipBlank text with
  | nil => simp [htext,hmembers]
  | cons c after =>
    have hc : c ≠ '\x7d' := fun hc => hhead (by rw [htext,hc]; rfl)
    simp [htext,hc,hmembers]

theorem readsBack_arr {item : Json} {items : List Json} (hportable : Portable style decimal item)
    (hitem : ReadsBack style decimal item) (h : ∀ it ∈ items, ReadsBack style decimal it) :
    ReadsBack style decimal (.arr (item::items)) := by
  intro depth fuel rest hfuel _
  cases fuel with
  | zero => simp [print] at hfuel
  | succ fuel =>
    simp only [print,List.length_cons,List.length_append] at hfuel
    have hitems := readItems_print hitem h depth fuel rest (by rw [List.length_append]; omega)
    rw [← readItems_blank decimal fuel (style.opening_blank depth)] at hitems
    have hhead : (skipBlank (style.opening depth++(print style (depth+1) item++
        (printItems style depth items++rest)))).head? ≠ some ']' := by
      obtain ⟨c,text,htext,hblank,hc⟩ := print_head (depth+1) hportable
      rw [skipBlank_append (style.opening_blank depth),htext,List.cons_append,
        skipBlank_cons hblank]
      exact fun hend => hc (Option.some.inj hend)
    rw [print,List.cons_append,List.append_assoc,List.append_assoc]
    exact readValue_arr hhead hitems

theorem readsBack_obj {key : String} {value : Json} {members : List (String×Json)}
    (hn : (((key,value)::members).map Prod.fst).Nodup) (hvalue : ReadsBack style decimal value)
    (h : ∀ m ∈ members, ReadsBack style decimal m.2) :
    ReadsBack style decimal (.obj ((key,value)::members)) := by
  intro depth fuel rest hfuel _
  cases fuel with
  | zero => simp [print] at hfuel
  | succ fuel =>
    simp only [print,List.length_cons,List.length_append] at hfuel
    have hmembers := @readMembers_print style decimal key _ _ hvalue h depth fuel rest (by
      simp only [List.length_cons,List.length_append]
      omega)
    rw [← readMembers_blank decimal fuel (style.opening_blank depth)] at hmembers
    have hhead : (skipBlank (style.opening depth++(quoted style.ascii key++ ':'::(style.colon++
        (print style (depth+1) value++(printMembers style depth members++rest)))))).head? ≠
          some '\x7d' := by
      rw [skipBlank_append (style.opening_blank depth),quoted,List.cons_append,skipBlank_cons rfl]
      exact fun hend => absurd (Option.some.inj hend) (by decide)
    have hread := readValue_obj hhead hmembers
    rw [ofMembers_nodup hn] at hread
    rw [print]
    simpa only [List.cons_append,List.append_assoc] using hread

theorem portableItems_iff {items : List Json} :
    PortableItems style decimal items ↔ ∀ item ∈ items, Portable style decimal item := by
  induction items with
  | nil => simp [PortableItems]
  | cons item items ih => rw [PortableItems,ih,List.forall_mem_cons]

theorem portableMembers_iff {members : List (String×Json)} :
    PortableMembers style decimal members ↔ ∀ m ∈ members, Portable style decimal m.2 := by
  induction members with
  | nil => simp [PortableMembers]
  | cons m members ih => rw [PortableMembers,ih,List.forall_mem_cons]

theorem readsBack_token {value : Json} {token : List Char}
    (hprint : ∀ depth, print style depth value = token) (h : ∀ c ∈ token, isNumeric c = true)
    (hne : token ≠ []) (hread : readNumber decimal token = some value) :
    ReadsBack style decimal value := by
  intro depth fuel rest hfuel hrest
  rw [hprint] at hfuel ⊢
  cases fuel with
  | zero => exact absurd (List.length_eq_zero_iff.mp (Nat.le_zero.mp hfuel)) hne
  | succ fuel =>
    rw [readValue_token decimal fuel h hne hrest,hread]
    rfl

theorem readNumber_intText {n : ℤ} (h : n.natAbs ≤ 2^53) :
    readNumber decimal (intText n) = some (.int n) := by
  rw [readNumber,integer_intText]
  exact if_pos h

theorem readsBack_literal {value : Json} {c : Char} {text : List Char}
    (hprint : ∀ depth, print style depth value = c::text)
    (hread : ∀ fuel rest, readValue decimal (fuel+1) (c::text++rest) = some (value,rest)) :
    ReadsBack style decimal value := by
  intro depth fuel rest hfuel _
  rw [hprint] at hfuel ⊢
  cases fuel with
  | zero => simp at hfuel
  | succ fuel => exact hread fuel rest

/-- By recursion on the value. -/
theorem readsBack : (value : Json) → Portable style decimal value → ReadsBack style decimal value
  | .null,_ => readsBack_literal (fun _ => rfl) fun _ _ => rfl
  | .bool true,_ => readsBack_literal (fun _ => rfl) fun _ _ => rfl
  | .bool false,_ => readsBack_literal (fun _ => rfl) fun _ _ => rfl
  | .int n,h => readsBack_token (fun _ => rfl) (intText_numeric n) (intText_ne_nil n)
      (readNumber_intText (by rwa [Portable] at h))
  | .float q,h => by
      rw [Portable] at h
      exact readsBack_token (fun _ => rfl) h.1 h.2.1 h.2.2
  | .str text,_ => readsBack_literal (fun _ => rfl) fun fuel rest => by
      rw [readValue,List.cons_append,skipBlank_cons rfl]
      simp [readString_quoted]
  | .arr [],_ => readsBack_literal (fun _ => rfl) fun _ _ => rfl
  | .arr (item::items),h => by
      rw [Portable,PortableItems] at h
      have hitems := portableItems_iff.mp h.2
      exact readsBack_arr h.1 (readsBack item h.1) fun it hit => readsBack it (hitems it hit)
  | .obj [],_ => readsBack_literal (fun _ => rfl) fun _ _ => rfl
  | .obj ((key,value)::members),h => by
      rw [Portable,PortableMembers] at h
      have hmembers := portableMembers_iff.mp h.2.2
      exact readsBack_obj h.1 (readsBack value h.2.1) fun m hm =>
        readsBack m.2 (hmembers m hm)
termination_by value => sizeOf value
decreasing_by
  · simp only [Json.arr.sizeOf_spec,List.cons.sizeOf_spec]
    omega
  · have hsize := List.sizeOf_lt_of_mem hit
    simp only [Json.arr.sizeOf_spec,List.cons.sizeOf_spec]
    omega
  · simp only [Json.obj.sizeOf_spec,List.cons.sizeOf_spec,Prod.mk.sizeOf_spec]
    omega
  · have hsize := List.sizeOf_lt_of_mem hm
    simp only [Json.obj.sizeOf_spec,List.cons.sizeOf_spec]
    have hpair : sizeOf m.2 < sizeOf m := by
      obtain ⟨k,v⟩ := m
      simp only [Prod.mk.sizeOf_spec]
      omega
    omega

end RoundTrip

/-- Whatever is printed is read back. -/
theorem parse_print {style : Style} {decimal : List Char → Option Json} {value : Json}
    (h : Portable style decimal value) : parse decimal (print style 0 value) = some value := by
  have hread := readsBack value h 0 (2*(print style 0 value).length+2) [] (by omega)
    (fun c hc => nomatch hc)
  rw [List.append_nil] at hread
  rw [parse,hread]
  rfl

end Senca.JsonText
