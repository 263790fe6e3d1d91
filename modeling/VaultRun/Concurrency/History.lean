import Mathlib.Data.List.TakeDrop
import VaultRun.Concurrency.RelyGuarantee

/-!
The log of a run read as a history: the latest statement of a call, and properties that each entry
has over the entries before it.
-/

namespace VaultRun.Concurrency

variable {I : Interface} {Out σ Event Oracle : Type} {M : Machine I Out σ Event Oracle}

namespace Entry

def isBy (i : ℕ) : Entry I σ Event → Bool
  | answered j _ _ _ _ => j = i
  | _ => false

lemma isBy_iff {i : ℕ} {x : Entry I σ Event} : x.isBy i ↔ ∃ s, x.Issues i s := by
  cases x with
  | answered j s r b a =>
      constructor
      · intro h
        obtain rfl : j = i := by simpa [isBy] using h
        exact ⟨s, r, b, a, rfl⟩
      · rintro ⟨s', r', b', a', h⟩
        simp [isBy, (Entry.answered.inj h).1]
  | moved j e b a => simp [isBy, Issues]
  | killed j b a => simp [isBy, Issues]

end Entry

/-- The latest statement of call `i` that was answered. -/
def lastBy (i : ℕ) (log : List (Entry I σ Event)) : Option (Entry I σ Event) := log.find? (·.isBy i)

section LastBy

variable {w w' : World I σ Event} {C : Contract M} {i j n : ℕ} {s : I.Stmt} {r : I.Reply s} {a b : σ}
  {e : Event} {log : List (Entry I σ Event)}

@[simp] lemma lastBy_answered_self :
    lastBy i (.answered i s r b a :: log) = some (.answered i s r b a) := by
  simp [lastBy, Entry.isBy]

@[simp] lemma lastBy_answered (h : j ≠ i) : lastBy i (.answered j s r b a :: log) = lastBy i log := by
  simp [lastBy, Entry.isBy, h]

@[simp] lemma lastBy_moved : lastBy i (.moved n e b a :: log) = lastBy i log := by
  simp [lastBy, Entry.isBy]

@[simp] lemma lastBy_killed : lastBy i (.killed n b a :: log) = lastBy i log := by
  simp [lastBy, Entry.isBy]

lemma lastBy_eq_none (h : ∀ x ∈ w.log, ∀ s, ¬ x.Issues i s) : lastBy i w.log = none := by
  refine List.find?_eq_none.2 fun x hx hb => ?_
  obtain ⟨s, hs⟩ := Entry.isBy_iff.1 hb
  exact h x hx s hs

lemma Contract.Moves.lastBy (h : C.Moves w w') : lastBy i w'.log = lastBy i w.log := by
  rcases h with ⟨n, e, a, p, -, -, rfl⟩ | ⟨j, -, rfl⟩
  · exact lastBy_moved
  · exact lastBy_killed

lemma Contract.Disturbs.lastBy (h : C.Disturbs i w w') : lastBy i w'.log = lastBy i w.log := by
  rcases h.2.2 with hm | ⟨j, s, r, hj, -, -, o, a, -, -, rfl⟩
  · exact hm.lastBy
  · exact lastBy_answered hj

lemma Contract.stable_lastBy (p : Option (Entry I σ Event) → Prop) :
    C.Stable i fun w => p (Concurrency.lastBy i w.log) := by
  intro w w' h hw
  rwa [h.lastBy]

lemma Contract.Answers.world {r : I.Reply s} (h : C.Answers j s w r w') :
    ∃ a, w' = w.answer j s r a := by
  obtain ⟨o, a, -, -, rfl⟩ := h
  exact ⟨a, rfl⟩

/-- What a longer log cannot take back is stable. -/
lemma Contract.stable_log (p : List (Entry I σ Event) → Prop)
    (hp : ∀ x log, p log → p (x :: log)) : C.Stable i fun w => p w.log := by
  intro w w' h hw
  rcases h.2.2 with (⟨n, e, a, q, -, -, rfl⟩ | ⟨j, -, rfl⟩) | ⟨j, s, r, -, -, -, o, a, -, -, rfl⟩ <;>
    exact hp _ _ hw

end LastBy

/-- What the answers to the statements of call `i` make of `b`, the oldest answer first. -/
def foldBy {β : Type} (f : β → (s : I.Stmt) → I.Reply s → β) (b : β) (i : ℕ) :
    List (Entry I σ Event) → β
  | [] => b
  | .answered j s r _ _ :: log => if j = i then f (foldBy f b i log) s r else foldBy f b i log
  | _ :: log => foldBy f b i log

section FoldBy

variable {β : Type} {f : β → (s : I.Stmt) → I.Reply s → β} {b : β} {i j n : ℕ} {s : I.Stmt}
  {r : I.Reply s} {before after : σ} {e : Event} {log : List (Entry I σ Event)}
  {w w' : World I σ Event} {C : Contract M}

@[simp] lemma foldBy_nil : foldBy f b i ([] : List (Entry I σ Event)) = b := rfl

@[simp] lemma foldBy_self :
    foldBy f b i (.answered i s r before after :: log) = f (foldBy f b i log) s r := if_pos rfl

@[simp] lemma foldBy_answered (h : j ≠ i) :
    foldBy f b i (.answered j s r before after :: log) = foldBy f b i log := if_neg h

@[simp] lemma foldBy_moved : foldBy f b i (.moved n e before after :: log) = foldBy f b i log := rfl

@[simp] lemma foldBy_killed : foldBy f b i (.killed n before after :: log) = foldBy f b i log := rfl

lemma Contract.Moves.foldBy (h : C.Moves w w') :
    foldBy f b i w'.log = Concurrency.foldBy f b i w.log := by
  rcases h with ⟨n, e, a, p, -, -, rfl⟩ | ⟨j, -, rfl⟩ <;> rfl

lemma Contract.Disturbs.foldBy (h : C.Disturbs i w w') :
    foldBy f b i w'.log = Concurrency.foldBy f b i w.log := by
  rcases h.2.2 with hm | ⟨j, s, r, hj, -, -, o, a, -, -, rfl⟩
  · exact hm.foldBy
  · exact foldBy_answered hj

lemma foldBy_of_absent (h : ∀ x ∈ log, ∀ s, ¬ x.Issues i s) : foldBy f b i log = b := by
  induction log with
  | nil => rfl
  | cons x log ih =>
      have hlog : foldBy f b i log = b := ih fun y hy => h y (by simp [hy])
      cases x with
      | answered j s r before after =>
          have hj : j ≠ i := by
            rintro rfl
            exact h _ (by simp) s ⟨r, before, after, rfl⟩
          exact (foldBy_answered hj).trans hlog
      | moved n e before after => exact hlog
      | killed n before after => exact hlog

/-- The fold ends with the latest answer. -/
lemma foldBy_of_lastBy {x : Entry I σ Event} (h : lastBy i log = some x) :
    ∃ s r before after, ∃ earlier : List (Entry I σ Event), x = .answered i s r before after ∧
      foldBy f b i log = f (foldBy f b i earlier) s r := by
  induction log with
  | nil => cases h
  | cons y log ih =>
      by_cases hy : y.isBy i
      · obtain ⟨s, r, before, after, rfl⟩ := Entry.isBy_iff.1 hy
        rw [lastBy_answered_self] at h
        exact ⟨s, r, before, after, log, (Option.some.inj h).symm, foldBy_self⟩
      · have hlast : lastBy i log = some x := by simpa [lastBy, hy] using h
        have hfold : foldBy f b i (y :: log) = foldBy f b i log := by
          cases y with
          | answered j s r before after => exact foldBy_answered (by simpa [Entry.isBy] using hy)
          | moved n e before after => rfl
          | killed n before after => rfl
        rw [hfold]
        exact ih hlast

end FoldBy

/-- Some entry after the latest `stop` satisfies `p`. -/
def Since (stop : Entry I σ Event → Bool) (p : Entry I σ Event → Prop) : List (Entry I σ Event) → Prop
  | [] => False
  | x :: log => stop x = false ∧ (p x ∨ Since stop p log)

section Since

variable {stop : Entry I σ Event → Bool} {p : Entry I σ Event → Prop} {x : Entry I σ Event}
  {log : List (Entry I σ Event)}

instance decidableSince [DecidablePred p] : (log : List (Entry I σ Event)) → Decidable (Since stop p log)
  | [] => .isFalse id
  | _ :: log =>
      have := decidableSince log
      inferInstanceAs (Decidable (_ ∧ (_ ∨ _)))

lemma Since.mono {q : Entry I σ Event → Prop} (h : Since stop p log) (hpq : ∀ x, p x → q x) :
    Since stop q log := by
  induction log with
  | nil => exact h
  | cons x log ih => exact ⟨h.1, h.2.imp (hpq x) ih⟩

lemma not_since_cons (h : ¬ Since stop p (x :: log)) (hx : stop x = false) : ¬ p x ∧ ¬ Since stop p log :=
  ⟨fun hp => h ⟨hx, .inl hp⟩, fun hs => h ⟨hx, .inr hs⟩⟩

end Since

/-- Each entry of the log stands in `φ` to the entries before it. -/
def Throughout (φ : Entry I σ Event → List (Entry I σ Event) → Prop) :
    List (Entry I σ Event) → Prop
  | [] => True
  | x :: log => φ x log ∧ Throughout φ log

lemma Throughout.split {φ : Entry I σ Event → List (Entry I σ Event) → Prop}
    {log later earlier : List (Entry I σ Event)} {x : Entry I σ Event} (h : Throughout φ log)
    (hlog : log = later ++ x :: earlier) : φ x earlier := by
  subst hlog
  induction later with
  | nil => exact h.1
  | cons y later ih => exact ih h.2

end VaultRun.Concurrency
