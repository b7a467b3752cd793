import Mathlib.Data.List.Forall2
import Mathlib.Tactic.Common

/-!
# Loops that append and may raise

A for-loop that appends to one list and can be left by an exception at any
element returns only when every element it visits returns, and then it
returns the concatenation of their parts. The same is stated for a loop
over numbered pages that stops or skips at an empty page, and for the
three nested loops over keywords, pages and items: they return exactly
when the plain visit returns and every visited item does. Nothing here
refers to a particular program.
-/

namespace Senca.FaultLoops

variable {ε α β γ κ : Type}

/-- The computation ends normally with some value. -/
def Returns (x : Except ε α) : Prop := ∃ a, x = .ok a

@[simp] theorem returns_ok (a : α) : Returns (.ok a : Except ε α) := ⟨a,rfl⟩

@[simp] theorem returns_pure (a : α) : Returns (pure a : Except ε α) := ⟨a,rfl⟩

@[simp] theorem not_returns_error (e : ε) : ¬Returns (.error e : Except ε α) := by
  rintro ⟨a,h⟩
  cases h

/-- A sequence ends with a value when both of its halves do. -/
theorem bind_eq_ok {x : Except ε α} {f : α → Except ε β} {b : β} :
    (x >>= f) = .ok b ↔ ∃ a, x = .ok a ∧ f a = .ok b := by
  cases x with
  | error e => simp [bind,Except.bind]
  | ok a => simp [bind,Except.bind]

@[simp] theorem pure_eq_ok {a b : α} : (pure a : Except ε α) = .ok b ↔ a = b := by
  simp [pure,Except.pure]

@[simp] theorem ok_bind (a : α) (f : α → Except ε β) : ((.ok a : Except ε α) >>= f) = f a := rfl

@[simp] theorem error_bind (e : ε) (f : α → Except ε β) :
    ((.error e : Except ε α) >>= f) = .error e := rfl

/-- A function applied to a result neither raises nor catches. -/
theorem map_eq_ok {x : Except ε α} {f : α → β} {b : β} :
    x.map f = .ok b ↔ ∃ a, x = .ok a ∧ f a = b := by
  cases x with
  | error e => simp [Except.map]
  | ok a => simp [Except.map]

@[simp] theorem returns_map {x : Except ε α} {f : α → β} : Returns (x.map f) ↔ Returns x := by
  constructor
  · rintro ⟨b,hb⟩
    obtain ⟨a,hx,-⟩ := map_eq_ok.mp hb
    exact ⟨a,hx⟩
  · rintro ⟨a,hx⟩
    exact ⟨f a,map_eq_ok.mpr ⟨a,hx,rfl⟩⟩

/-- A sequence returns when its first half does and its second half does
on that value. -/
theorem returns_bind {x : Except ε α} {f : α → Except ε β} :
    Returns (x >>= f) ↔ ∃ a, x = .ok a ∧ Returns (f a) := by
  constructor
  · rintro ⟨b,hb⟩
    obtain ⟨a,hx,hf⟩ := bind_eq_ok.mp hb
    exact ⟨a,hx,b,hf⟩
  · rintro ⟨a,hx,b,hf⟩
    exact ⟨b,bind_eq_ok.mpr ⟨a,hx,hf⟩⟩

/-- Append the parts of all elements in order, raising at the first element
whose body raises. -/
def gather (body : α → Except ε (List β)) : List α → Except ε (List β)
  | [] => pure []
  | a::rest => do
    let here ← body a
    let later ← gather body rest
    pure (here++later)

@[simp] theorem gather_nil (body : α → Except ε (List β)) : gather body [] = .ok [] := rfl

theorem gather_cons_eq_ok {body : α → Except ε (List β)} {a : α} {rest : List α}
    {out : List β} : gather body (a::rest) = .ok out ↔
      ∃ here later, body a = .ok here ∧ gather body rest = .ok later ∧ out = here++later := by
  simp only [gather,bind_eq_ok,pure_eq_ok]
  constructor
  · rintro ⟨here,hh,later,hl,rfl⟩
    exact ⟨here,later,hh,hl,rfl⟩
  · rintro ⟨here,later,hh,hl,rfl⟩
    exact ⟨here,hh,later,hl,rfl⟩

/-- The loop returns exactly when every element's body returns. -/
theorem gather_returns {body : α → Except ε (List β)} {l : List α} :
    Returns (gather body l) ↔ ∀ a ∈ l, Returns (body a) := by
  induction l with
  | nil => simp
  | cons a rest ih =>
    rw [List.forall_mem_cons,← ih]
    constructor
    · rintro ⟨out,h⟩
      obtain ⟨here,later,hh,hl,-⟩ := gather_cons_eq_ok.mp h
      exact ⟨⟨here,hh⟩,later,hl⟩
    · rintro ⟨⟨here,hh⟩,later,hl⟩
      exact ⟨here++later,gather_cons_eq_ok.mpr ⟨here,later,hh,hl,rfl⟩⟩

/-- When every body returns, the loop is the flat map of their values. -/
theorem gather_eq_flatMap {body : α → Except ε (List β)} {value : α → List β} {l : List α}
    (h : ∀ a ∈ l, body a = .ok (value a)) : gather body l = .ok (l.flatMap value) := by
  induction l with
  | nil => rfl
  | cons a rest ih =>
    have ha := h a (List.mem_cons_self)
    have hrest := ih (fun b hb => h b (List.mem_cons_of_mem a hb))
    exact gather_cons_eq_ok.mpr ⟨value a,_,ha,hrest,rfl⟩

/-- A loop over two lists in turn is the two loops in turn. -/
theorem gather_append_eq_ok {body : α → Except ε (List β)} {l₁ l₂ : List α} {out : List β} :
    gather body (l₁++l₂) = .ok out ↔
      ∃ out₁ out₂, gather body l₁ = .ok out₁ ∧ gather body l₂ = .ok out₂ ∧
        out = out₁++out₂ := by
  induction l₁ generalizing out with
  | nil => simp [gather_nil]
  | cons a l₁ ih =>
    rw [List.cons_append,gather_cons_eq_ok]
    constructor
    · rintro ⟨here,later,hh,hl,rfl⟩
      obtain ⟨out₁,out₂,h₁,h₂,rfl⟩ := ih.mp hl
      exact ⟨here++out₁,out₂,gather_cons_eq_ok.mpr ⟨here,out₁,hh,h₁,rfl⟩,h₂,
        (List.append_assoc _ _ _).symm⟩
    · rintro ⟨out₁',out₂,h₁,h₂,rfl⟩
      obtain ⟨here,out₁,hh,hl,rfl⟩ := gather_cons_eq_ok.mp h₁
      exact ⟨here,out₁++out₂,hh,ih.mpr ⟨out₁,out₂,hl,h₂,rfl⟩,List.append_assoc _ _ _⟩

/-- Every collected element comes from the body of some visited element. -/
theorem mem_of_gather {body : α → Except ε (List β)} {l : List α} {out : List β}
    (h : gather body l = .ok out) {b : β} (hb : b ∈ out) :
    ∃ a ∈ l, ∃ part, body a = .ok part ∧ b ∈ part := by
  induction l generalizing out with
  | nil =>
    cases h
    simp at hb
  | cons a rest ih =>
    obtain ⟨here,later,hh,hl,rfl⟩ := gather_cons_eq_ok.mp h
    rcases List.mem_append.mp hb with hb | hb
    · exact ⟨a,List.mem_cons_self,here,hh,hb⟩
    · obtain ⟨a',ha',part,hp,hm⟩ := ih hl hb
      exact ⟨a',List.mem_cons_of_mem a ha',part,hp,hm⟩

/-- The parts of all visited elements are collected. -/
theorem mem_gather {body : α → Except ε (List β)} {l : List α} {out : List β}
    (h : gather body l = .ok out) {b : β} :
    b ∈ out ↔ ∃ a ∈ l, ∃ part, body a = .ok part ∧ b ∈ part := by
  refine ⟨mem_of_gather h,?_⟩
  rintro ⟨a,ha,part,hpart,hb⟩
  induction l generalizing out with
  | nil => cases ha
  | cons first rest ih =>
    obtain ⟨here,later,hh,hl,rfl⟩ := gather_cons_eq_ok.mp h
    rcases List.mem_cons.mp ha with rfl | ha
    · rw [hh] at hpart
      obtain rfl := Except.ok.inj hpart
      exact List.mem_append_left _ hb
    · exact List.mem_append_right _ (ih hl ha)

/-- A loop that appends one value for each element, by its first element. -/
theorem gather_cons_one {body : α → Except ε β} {a : α} {rest : List α} {out : List β} :
    gather (fun a => do pure [← body a]) (a::rest) = .ok out ↔
      ∃ b later, body a = .ok b ∧ gather (fun a => do pure [← body a]) rest = .ok later ∧
        out = b::later := by
  rw [gather_cons_eq_ok]
  constructor
  · rintro ⟨here,later,hh,hl,rfl⟩
    obtain ⟨b,hb,hhere⟩ := bind_eq_ok.mp hh
    obtain rfl := pure_eq_ok.mp hhere
    exact ⟨b,later,hb,hl,rfl⟩
  · rintro ⟨b,later,hb,hl,rfl⟩
    exact ⟨[b],later,by rw [hb]; rfl,hl,rfl⟩

/-- So the values of all elements are collected. -/
theorem gather_one_eq_ok {body : α → Except ε β} {l : List α} {out : List β} :
    gather (fun a => do pure [← body a]) l = .ok out ↔
      List.Forall₂ (fun a b => body a = .ok b) l out := by
  induction l generalizing out with
  | nil => simp [eq_comm]
  | cons a rest ih => simp only [gather_cons_one,List.forall₂_cons_left_iff,ih]

/-- A loop that passes over some elements and appends one value for each of the
others. -/
theorem gather_filter {body : α → Except ε (List β)} {p : α → Bool} {l : List α} {out : List β}
    (hpassed : ∀ a part, p a = false → body a = .ok part → part = [])
    (hone : ∀ a part, p a = true → body a = .ok part → ∃ b, part = [b])
    (h : gather body l = .ok out) :
    List.Forall₂ (fun a b => p a = true ∧ body a = .ok [b]) (l.filter p) out := by
  induction l generalizing out with
  | nil =>
    cases h
    exact .nil
  | cons a rest ih =>
    obtain ⟨here,later,hh,hl,rfl⟩ := gather_cons_eq_ok.mp h
    cases ha : p a with
    | false =>
      rw [hpassed a here ha hh,List.nil_append,List.filter_cons_of_neg (by simp [ha])]
      exact ih hl
    | true =>
      obtain ⟨b,rfl⟩ := hone a here ha hh
      rw [List.filter_cons_of_pos ha,List.singleton_append]
      exact .cons ⟨ha,hh⟩ (ih hl)

/-- Lists that correspond entry by entry agree on what corresponding entries agree
on. -/
theorem map_of_forall₂ {R : α → β → Prop} {f : α → γ} {g : β → γ}
    (h : ∀ a b, R a b → g b = f a) {l : List α} {l' : List β} (hl : List.Forall₂ R l l') :
    l'.map g = l.map f := by
  induction hl with
  | nil => rfl
  | cons hab _ ih => rw [List.map_cons,List.map_cons,ih,h _ _ hab]

/-! ### Pages -/

/-- What a loop over pages does at a page without items. -/
inductive OnEmpty where
  /-- Leave the page loop. -/
  | stop
  /-- Go on with the next page. -/
  | skip
  deriving DecidableEq

/-- Visit the pages in order and append the parts of their items; a page is
empty when its fetch gives no list at all. -/
def gatherPages (onEmpty : OnEmpty) (page : ℕ → Except ε (Option (List α)))
    (body : α → Except ε (List β)) : List ℕ → Except ε (List β)
  | [] => pure []
  | pg::rest => do
    match ← page pg with
    | none =>
      match onEmpty with
      | .stop => pure []
      | .skip => gatherPages onEmpty page body rest
    | some items => do
      let here ← gather body items
      let later ← gatherPages onEmpty page body rest
      pure (here++later)

/-- The items a page loop visits, without what its body does with them. -/
def visitedItems (onEmpty : OnEmpty) (page : ℕ → Except ε (Option (List α))) :
    List ℕ → Except ε (List α) :=
  gatherPages onEmpty page (fun item => pure [item])

theorem gather_singleton (l : List α) :
    gather (fun item => (pure [item] : Except ε (List α))) l = .ok l := by
  have h : gather (fun item => (pure [item] : Except ε (List α))) l =
      .ok (l.flatMap (fun item => [item])) := gather_eq_flatMap (fun _ _ => rfl)
  rwa [List.flatMap_singleton'] at h

/-- The page loop is the plain visit followed by the body on every item. -/
theorem gatherPages_eq_ok {onEmpty : OnEmpty} {page : ℕ → Except ε (Option (List α))}
    {body : α → Except ε (List β)} {pages : List ℕ} {out : List β} :
    gatherPages onEmpty page body pages = .ok out ↔
      ∃ items, visitedItems onEmpty page pages = .ok items ∧ gather body items = .ok out := by
  induction pages generalizing out with
  | nil => simp [gatherPages,visitedItems,pure,Except.pure]
  | cons pg rest ih =>
    cases hp : page pg with
    | error e => simp [gatherPages,visitedItems,hp]
    | ok found =>
      cases found with
      | none =>
        cases onEmpty with
        | stop => simp [gatherPages,visitedItems,hp,pure,Except.pure]
        | skip => simpa [gatherPages,visitedItems,hp] using ih
      | some items =>
        simp only [gatherPages,visitedItems,hp,ok_bind,gather_singleton,bind_eq_ok,pure_eq_ok]
        constructor
        · rintro ⟨here,hh,later,hl,rfl⟩
          obtain ⟨others,ho,hg⟩ := ih.mp hl
          exact ⟨items++others,⟨others,ho,rfl⟩,
            gather_append_eq_ok.mpr ⟨here,later,hh,hg,rfl⟩⟩
        · rintro ⟨_,⟨others,ho,rfl⟩,hg⟩
          obtain ⟨here,later,hh,hl,rfl⟩ := gather_append_eq_ok.mp hg
          exact ⟨here,hh,later,ih.mpr ⟨others,ho,hl⟩,rfl⟩

/-! ### Keywords, pages and items -/

/-- Three nested loops: every keyword, its pages, and the items of each page,
with the keyword passed to the body. -/
def gatherKeywords (onEmpty : OnEmpty) (page : κ → ℕ → Except ε (Option (List α)))
    (pages : List ℕ) (body : κ → α → Except ε (List β)) (keywords : List κ) :
    Except ε (List β) :=
  gather (fun kw => gatherPages onEmpty (page kw) (body kw) pages) keywords

/-- The (keyword, item) pairs the nested loops visit, in order. -/
def visits (onEmpty : OnEmpty) (page : κ → ℕ → Except ε (Option (List α)))
    (pages : List ℕ) (keywords : List κ) : Except ε (List (κ×α)) :=
  gather (fun kw => do
    let items ← visitedItems onEmpty (page kw) pages
    pure (items.map (fun item => (kw,item)))) keywords

/-- A page loop whose pages all return visits them to its end. -/
theorem visitedItems_returns (onEmpty : OnEmpty) {page : ℕ → Except ε (Option (List α))}
    {pages : List ℕ} (h : ∀ pg ∈ pages, Returns (page pg)) :
    Returns (visitedItems onEmpty page pages) := by
  induction pages with
  | nil => simp [visitedItems,gatherPages]
  | cons pg rest ih =>
    obtain ⟨found,hf⟩ := h pg List.mem_cons_self
    obtain ⟨others,ho⟩ := ih (fun p hp => h p (List.mem_cons_of_mem pg hp))
    unfold visitedItems at ho
    cases found with
    | none => cases onEmpty <;> simp [visitedItems,gatherPages,hf,ho]
    | some items => simp [visitedItems,gatherPages,hf,ho,gather_singleton]

/-- Every visited item stands on one of the pages. -/
theorem mem_of_visitedItems {onEmpty : OnEmpty} {page : ℕ → Except ε (Option (List α))}
    {pages : List ℕ} {items : List α} (h : visitedItems onEmpty page pages = .ok items)
    {item : α} (hitem : item ∈ items) :
    ∃ pg ∈ pages, ∃ found, page pg = .ok (some found) ∧ item ∈ found := by
  induction pages generalizing items with
  | nil =>
    simp only [visitedItems,gatherPages,pure_eq_ok] at h
    subst h
    simp at hitem
  | cons pg rest ih =>
    have later : ∀ {others}, visitedItems onEmpty page rest = .ok others → item ∈ others →
        ∃ p ∈ pg::rest, ∃ found, page p = .ok (some found) ∧ item ∈ found := by
      intro others ho hmem
      obtain ⟨p,hp,found,hf⟩ := ih ho hmem
      exact ⟨p,List.mem_cons_of_mem pg hp,found,hf⟩
    cases hp : page pg with
    | error e => simp [visitedItems,gatherPages,hp] at h
    | ok found =>
      cases found with
      | none =>
        cases onEmpty with
        | stop =>
          simp only [visitedItems,gatherPages,hp,ok_bind,pure_eq_ok] at h
          subst h
          simp at hitem
        | skip =>
          simp only [visitedItems,gatherPages,hp,ok_bind] at h
          exact later h hitem
      | some here =>
        simp only [visitedItems,gatherPages,hp,ok_bind,gather_singleton,bind_eq_ok,
          pure_eq_ok] at h
        obtain ⟨others,ho,rfl⟩ := h
        rcases List.mem_append.mp hitem with hm | hm
        · exact ⟨pg,List.mem_cons_self,here,hp,hm⟩
        · exact later ho hm

theorem gather_map {f : γ → α} {body : α → Except ε (List β)} (l : List γ) :
    gather body (l.map f) = gather (fun c => body (f c)) l := by
  induction l with
  | nil => rfl
  | cons c l ih => simp only [List.map_cons,gather,ih]

/-- The nested loops are the plain visit followed by the body on every
visited pair; so they return exactly when both do. -/
theorem gatherKeywords_eq_ok {onEmpty : OnEmpty} {page : κ → ℕ → Except ε (Option (List α))}
    {pages : List ℕ} {body : κ → α → Except ε (List β)} {keywords : List κ} {out : List β} :
    gatherKeywords onEmpty page pages body keywords = .ok out ↔
      ∃ visited, visits onEmpty page pages keywords = .ok visited ∧
        gather (fun v => body v.1 v.2) visited = .ok out := by
  unfold gatherKeywords visits
  induction keywords generalizing out with
  | nil => simp
  | cons kw rest ih =>
    rw [gather_cons_eq_ok]
    constructor
    · rintro ⟨here,later,hh,hl,rfl⟩
      obtain ⟨items,hi,hg⟩ := gatherPages_eq_ok.mp hh
      obtain ⟨others,ho,hr⟩ := ih.mp hl
      refine ⟨items.map (fun item => (kw,item))++others,?_,?_⟩
      · exact gather_cons_eq_ok.mpr ⟨_,others,by rw [hi]; rfl,ho,rfl⟩
      · exact gather_append_eq_ok.mpr ⟨here,later,by rw [gather_map]; exact hg,hr,rfl⟩
    · rintro ⟨visited,hv,hg⟩
      obtain ⟨first,others,hf,ho,rfl⟩ := gather_cons_eq_ok.mp hv
      obtain ⟨items,hi,rfl⟩ : ∃ items, visitedItems onEmpty (page kw) pages = .ok items ∧
          items.map (fun item => (kw,item)) = first := by
        simpa only [bind_eq_ok,pure_eq_ok] using hf
      obtain ⟨here,later,hh,hl,rfl⟩ := gather_append_eq_ok.mp hg
      rw [gather_map] at hh
      exact ⟨here,later,gatherPages_eq_ok.mpr ⟨items,hi,hh⟩,ih.mpr ⟨others,ho,hl⟩,rfl⟩

/-- The nested loops return exactly when the visit does and no visited item
makes the body raise. -/
theorem gatherKeywords_returns {onEmpty : OnEmpty}
    {page : κ → ℕ → Except ε (Option (List α))} {pages : List ℕ}
    {body : κ → α → Except ε (List β)} {keywords : List κ} :
    Returns (gatherKeywords onEmpty page pages body keywords) ↔
      ∃ visited, visits onEmpty page pages keywords = .ok visited ∧
        ∀ v ∈ visited, Returns (body v.1 v.2) := by
  constructor
  · rintro ⟨out,h⟩
    obtain ⟨visited,hv,hg⟩ := gatherKeywords_eq_ok.mp h
    exact ⟨visited,hv,gather_returns.mp ⟨out,hg⟩⟩
  · rintro ⟨visited,hv,hall⟩
    obtain ⟨out,hg⟩ := gather_returns.mpr hall
    exact ⟨out,gatherKeywords_eq_ok.mpr ⟨visited,hv,hg⟩⟩

/-- When every page of every keyword returns, so does the visit. -/
theorem visits_returns (onEmpty : OnEmpty) {page : κ → ℕ → Except ε (Option (List α))}
    {pages : List ℕ} {keywords : List κ}
    (h : ∀ kw ∈ keywords, ∀ pg ∈ pages, Returns (page kw pg)) :
    Returns (visits onEmpty page pages keywords) := by
  apply gather_returns.mpr
  intro kw hkw
  obtain ⟨items,hi⟩ := visitedItems_returns onEmpty (h kw hkw)
  exact ⟨_,by rw [hi]; rfl⟩

/-- Every visited pair is an item on a page of one of the keywords. -/
theorem mem_of_visits {onEmpty : OnEmpty} {page : κ → ℕ → Except ε (Option (List α))}
    {pages : List ℕ} {keywords : List κ} {visited : List (κ×α)}
    (h : visits onEmpty page pages keywords = .ok visited) {v : κ×α} (hv : v ∈ visited) :
    v.1 ∈ keywords ∧ ∃ pg ∈ pages, ∃ found, page v.1 pg = .ok (some found) ∧ v.2 ∈ found := by
  obtain ⟨kw,hkw,part,hpart,hmem⟩ := mem_of_gather h hv
  simp only [bind_eq_ok,pure_eq_ok] at hpart
  obtain ⟨items,hi,rfl⟩ := hpart
  obtain ⟨item,hitem,rfl⟩ := List.mem_map.mp hmem
  exact ⟨hkw,mem_of_visitedItems hi hitem⟩

end Senca.FaultLoops
