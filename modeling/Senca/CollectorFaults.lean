import Senca.ItemReadings

/-!
# What one malformed upstream item does to a whole run

The scorers read optional fields with `.get(key, default)`, which covers an
absent field and not a null one. A null in a field a scorer calls a method
on raises, and the exception leaves all three loops of the collector. A run
therefore isolates its malformed items exactly when none of the items it
visits carries a null the scorer reaches; then every other item is ranked
as if the malformed ones had been anything else.
-/

namespace Senca.CollectorFaults

open CollectorRanking FaultLoops ItemReadings JsonValue PythonRuntime ScraperCollectors
open StableRanking

section Generic

variable {τ ι ρ : Type} (c : Collector τ ι ρ) (keywords : List String)

/-- The stable ranking of the records of visited pairs, each record with the
mark of its pair. -/
def ranking (marked : List (Bool×(String×τ))) : List (Bool×ι) :=
  sortDesc (c.key ∘ Prod.snd)
    (marked.flatMap (fun m => (c.record m.2).map (fun r => (m.1,r))))

/-- Visited pairs, marked when the item is whole. -/
def markWhole (whole : τ → Bool) (visited : List (String×τ)) : List (Bool×(String×τ)) :=
  visited.map (fun v => (whole v.2,v))

/-- A run returns normally, and its whole items are scored and ranked as on
any other answers in which the loops meet the same whole items. -/
structure Isolates (whole : τ → Bool) (run : Py (List ι)) : Prop where
  /-- The run returns the ten best of everything it visits. -/
  returns : ∃ visited, c.visited keywords = .ok visited ∧
    run = .ok (((ranking c (markWhole whole visited)).map Prod.snd).take 10)
  /-- Whatever the other items are replaced by, also by nothing, the whole
  ones keep their scores and their order. -/
  unaffected : ∀ visited, c.visited keywords = .ok visited →
    ∀ page marked, {c with page := page}.visited keywords = .ok (marked.map Prod.snd) →
      marked.filter Prod.fst = (markWhole whole visited).filter Prod.fst →
      (ranking {c with page := page} marked).filter Prod.fst =
        (ranking c (markWhole whole visited)).filter Prod.fst

/-- Every page of every keyword is answered, with items of the expected form. -/
def Feeds (typed : τ → Prop) : Prop :=
  ∀ kw ∈ keywords, ∀ pg ∈ c.pages, ∃ found, c.page kw pg = .ok found ∧
    ∀ items, found = some items → ∀ item ∈ items, typed item

variable {c keywords}

/-- Every visited item comes from a page, so it has the expected form. -/
theorem Feeds.visited {typed : τ → Prop} (h : Feeds c keywords typed) :
    ∃ visited, c.visited keywords = .ok visited ∧ ∀ v ∈ visited, typed v.2 := by
  obtain ⟨visited,hv⟩ := visits_returns c.onEmpty (fun kw hkw pg hpg => by
    obtain ⟨found,hf,-⟩ := h kw hkw pg hpg
    exact ⟨found,hf⟩)
  refine ⟨visited,hv,?_⟩
  intro v hmem
  obtain ⟨hkw,pg,hpg,found,hf,hitem⟩ := mem_of_visits hv hmem
  obtain ⟨found',hf',htyped⟩ := h v.1 hkw pg hpg
  rw [hf] at hf'
  exact htyped found (Except.ok.inj hf').symm v.2 hitem

end Generic

/-! ### Optional fields -/

section Runs

variable (py : Interpreter) (now : ℤ) (ollama : Ollama) (pages : ℕ) (keywords : List String)
  (paged : String → ℕ → Py HttpResponse) (request : String → Py HttpResponse)

variable {py now pages keywords paged request}

end Runs

/-! ### One answer of each service -/

/-- A show and a null in place of one. -/
def sampleShows : Json := .obj [("shows",.obj [("items",.arr [
  .obj [("name",.str "Talks"),("description",.str "weekly"),("popularity",.int 30)],.null])])]

end Senca.CollectorFaults
