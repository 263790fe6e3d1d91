import Mathlib

/-!
Leases on a cell: an owner may act on the cell until its lease runs out, when the next one may take it.
Owners that give the cell back in time exclude each other, and a cell that is done stays done.
-/

namespace VaultRun.Concurrency.Lease

open Function

inductive Cell (τ : Type) where
  | free
  | held (ends : τ)
  | done

/-- `holder i` is the end of the lease that owner `i` has taken and not given back. -/
structure State (ι τ : Type) where
  cell : Cell τ
  holder : ι → Option τ
  now : τ

variable {ι τ : Type} [LinearOrder τ]

def Cell.Open (now : τ) : Cell τ → Prop
  | free => True
  | held t => t ≤ now
  | done => False

def State.Live (s : State ι τ) (i : ι) : Prop := ∃ t, s.holder i = some t ∧ s.now < t

/-- A live owner is the one the cell is held by, and there is one at most. -/
structure Exclusive (s : State ι τ) : Prop where
  held : ∀ i t, s.holder i = some t → s.now < t → s.cell = .held t
  unique : ∀ i j, s.Live i → s.Live j → i = j

def Covered (s : State ι τ) : Prop := ∀ t, s.cell = .held t → s.now ≤ t → ∃ i, s.holder i = some t

variable {s : State ι τ} {i j : ι} {t : τ}

def State.wait (s : State ι τ) (t : τ) : State ι τ := { s with now := t }

/-- The cell is taken by somebody who does not know of it. -/
def State.take (s : State ι τ) (t : τ) : State ι τ := { s with cell := .held t }

namespace Exclusive

lemma not_live (h : Exclusive s) (hopen : s.cell.Open s.now) : ¬ s.Live i := by
  rintro ⟨t, ht, hlt⟩
  rw [h.held i t ht hlt] at hopen
  exact absurd hlt (not_lt.2 hopen)

lemma not_done (h : Exclusive s) (hi : s.Live i) : s.cell ≠ .done := by
  obtain ⟨t, ht, hlt⟩ := hi
  rw [h.held i t ht hlt]
  nofun

lemma take (h : Exclusive s) (hopen : s.cell.Open s.now) (t : τ) : Exclusive (s.take t) := by
  constructor
  · intro j t' ht' hlt
    exact absurd ⟨t', ht', hlt⟩ (h.not_live hopen (i := j))
  · intro j k hj
    exact absurd hj (h.not_live hopen (i := j))

lemma wait (h : Exclusive s) (ht : s.now ≤ t) : Exclusive (s.wait t) := by
  constructor
  · intro j t' ht' hlt
    exact h.held j t' ht' (ht.trans_lt hlt)
  · rintro j k ⟨t₁, h₁, hlt₁⟩ ⟨t₂, h₂, hlt₂⟩
    exact h.unique j k ⟨t₁, h₁, ht.trans_lt hlt₁⟩ ⟨t₂, h₂, ht.trans_lt hlt₂⟩

end Exclusive

lemma Covered.wait (h : Covered s) (ht : s.now ≤ t) : Covered (s.wait t) :=
  fun t' hcell hle => h t' hcell (ht.trans hle)

variable [DecidableEq ι]

namespace State

def acquire (s : State ι τ) (i : ι) (t : τ) : State ι τ :=
  { s with cell := .held t, holder := update s.holder i (some t) }

def drop (s : State ι τ) (i : ι) : State ι τ := { s with holder := update s.holder i none }

def giveBack (s : State ι τ) (i : ι) : State ι τ := { s.drop i with cell := .free }

def finish (s : State ι τ) (i : ι) : State ι τ := { s.drop i with cell := .done }

end State

open State

lemma Live.of_drop (h : (s.drop i).Live j) : j ≠ i ∧ s.Live j := by
  obtain ⟨t, ht, hlt⟩ := h
  have hj : j ≠ i := by
    rintro rfl
    simp [drop] at ht
  exact ⟨hj, t, by simpa [drop, hj] using ht, hlt⟩

lemma Exclusive.acquire (h : Exclusive s) (hopen : s.cell.Open s.now) (i : ι) (t : τ) :
    Exclusive (s.acquire i t) := by
  have hi {j : ι} (hj : (s.acquire i t).Live j) : j = i := by
    by_contra hne
    obtain ⟨t', ht', hlt⟩ := hj
    exact h.not_live hopen (i := j) ⟨t', by simpa [State.acquire, hne] using ht', hlt⟩
  constructor
  · intro j t' ht' hlt
    obtain rfl := hi ⟨t', ht', hlt⟩
    obtain rfl : t = t' := by simpa [State.acquire] using ht'
    rfl
  · intro j k hj hk
    rw [hi hj, hi hk]

lemma Exclusive.drop (h : Exclusive s) (i : ι) : Exclusive (s.drop i) := by
  constructor
  · intro j t ht hlt
    obtain ⟨hj, -⟩ := Live.of_drop ⟨t, ht, hlt⟩
    exact h.held j t (by simpa [State.drop, hj] using ht) hlt
  · intro j k hj hk
    exact h.unique j k (Live.of_drop hj).2 (Live.of_drop hk).2

/-- A cell whose only live owner is `i` may be left to itself by `i`. -/
lemma Exclusive.of_alone {c : Cell τ} (h : ∀ j, s.Live j → j = i) :
    Exclusive { s.drop i with cell := c } := by
  have hnone {j : ι} : ¬ State.Live { s.drop i with cell := c } j := by
    intro hj
    obtain ⟨hne, hlive⟩ := Live.of_drop (s := s) hj
    exact hne (h j hlive)
  constructor
  · intro j t ht hlt
    exact absurd ⟨t, ht, hlt⟩ (hnone (j := j))
  · intro j k hj
    exact absurd hj (hnone (j := j))

lemma Exclusive.giveBack (h : Exclusive s) (hi : s.Live i) : Exclusive (s.giveBack i) :=
  .of_alone fun j hj => h.unique j i hj hi

lemma Exclusive.finish (h : ∀ j, s.Live j → j = i) : Exclusive (s.finish i) := .of_alone h

lemma Covered.acquire (i : ι) (t : τ) : Covered (s.acquire i t) := by
  intro t' hcell _
  obtain rfl : t = t' := by simpa [State.acquire] using hcell
  exact ⟨i, by simp [State.acquire]⟩

/-- What owners do that give the cell back before their leases run out. -/
inductive Step : State ι τ → State ι τ → Prop
  | stay (s : State ι τ) : Step s s
  | acquire (s : State ι τ) (i : ι) (t : τ) (hopen : s.cell.Open s.now) : Step s (s.acquire i t)
  | giveBack (s : State ι τ) (i : ι) (hi : s.Live i) : Step s (s.giveBack i)
  | finish (s : State ι τ) (i : ι) (hi : s.Live i) : Step s (s.finish i)
  | wait (s : State ι τ) (t : τ) (ht : s.now ≤ t) : Step s (s.wait t)

namespace Step

variable {s' : State ι τ}

lemma exclusive (h : Step s s') (he : Exclusive s) : Exclusive s' := by
  cases h with
  | stay => exact he
  | acquire i t hopen => exact he.acquire hopen i t
  | giveBack i hi => exact he.giveBack hi
  | finish i hi => exact .finish fun j hj => he.unique j i hj hi
  | wait t ht => exact he.wait ht

lemma covered (h : Step s s') (hc : Covered s) : Covered s' := by
  cases h with
  | stay => exact hc
  | acquire i t hopen => exact .acquire i t
  | giveBack i hi => exact nofun
  | finish i hi => exact nofun
  | wait t ht => exact hc.wait ht

lemma done (h : Step s s') (he : Exclusive s) (hd : s.cell = .done) : s'.cell = .done := by
  cases h with
  | stay => exact hd
  | acquire i t hopen =>
      rw [hd] at hopen
      exact hopen.elim
  | giveBack i hi => exact absurd hd (he.not_done hi)
  | finish i hi => rfl
  | wait t ht => exact hd

end Step

end VaultRun.Concurrency.Lease
