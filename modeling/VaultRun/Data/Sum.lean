import Mathlib
import VaultRun.Data.Table

/-!
What the rows of a table weigh together, and how an insert, an update and a removal change it.
-/

namespace VaultRun.Data

variable {κ ρ ρ' : Type} [DecidableEq κ]

namespace Table

def sum (t : Table κ ρ) (f : κ → ρ → ℤ) : ℤ := (t.ids.map fun k => (t.row k).elim 0 (f k)).sum

variable {t t' : Table κ ρ} {k : κ} {r : ρ} {f g : κ → ρ → ℤ} {p : κ → ρ → Bool}

lemma sum_eq {s : Finset κ} (hs : ∀ k r, t.row k = some r → k ∈ s) :
    t.sum f = s.sum fun k => (t.row k).elim 0 (f k) := by
  have hids : t.sum f = t.ids.toFinset.sum fun k => (t.row k).elim 0 (f k) :=
    (List.sum_toFinset _ t.nodup).symm
  have hzero (u : Finset κ) (hu : ∀ k r, t.row k = some r → k ∈ u) (k : κ) (hk : k ∉ u) :
      (t.row k).elim 0 (f k) = 0 := by
    cases hrow : t.row k with
    | none => rfl
    | some r => exact absurd (hu k r hrow) hk
  have hmem (k : κ) (r : ρ) (hr : t.row k = some r) : k ∈ t.ids.toFinset := by
    simpa using t.row_mem k r hr
  have hleft : t.ids.toFinset ⊆ t.ids.toFinset ∪ s := Finset.subset_union_left
  have hright : s ⊆ t.ids.toFinset ∪ s := Finset.subset_union_right
  rw [hids, Finset.sum_subset hleft fun k _ hk => hzero _ hmem k hk,
    ← Finset.sum_subset hright fun k _ hk => hzero s hs k hk]

lemma sum_le_sum {t' : Table κ ρ'} {f' : κ → ρ' → ℤ}
    (h : ∀ k, (t.row k).elim 0 (f k) ≤ (t'.row k).elim 0 (f' k)) : t.sum f ≤ t'.sum f' := by
  rw [sum_eq (s := t.ids.toFinset ∪ t'.ids.toFinset), sum_eq (s := t.ids.toFinset ∪ t'.ids.toFinset)]
  · exact Finset.sum_le_sum fun k _ => h k
  · intro k r hr
    simp [t'.row_mem k r hr]
  · intro k r hr
    simp [t.row_mem k r hr]

lemma sum_congr {t' : Table κ ρ'} {f' : κ → ρ' → ℤ}
    (h : ∀ k, (t.row k).elim 0 (f k) = (t'.row k).elim 0 (f' k)) : t.sum f = t'.sum f' :=
  le_antisymm (sum_le_sum fun k => (h k).le) (sum_le_sum fun k => (h k).ge)

lemma sum_add : (t.sum fun k r => f k r + g k r) = t.sum f + t.sum g := by
  have hs (k : κ) (r : ρ) (hr : t.row k = some r) : k ∈ t.ids.toFinset := by
    simpa using t.row_mem k r hr
  rw [sum_eq hs, sum_eq hs, sum_eq hs, ← Finset.sum_add_distrib]
  refine Finset.sum_congr rfl fun k _ => ?_
  cases t.row k <;> simp

lemma sum_nonneg (h : ∀ k r, t.row k = some r → 0 ≤ f k r) : 0 ≤ t.sum f := by
  rw [sum_eq (s := t.ids.toFinset) fun k r hr => by simpa using t.row_mem k r hr]
  refine Finset.sum_nonneg fun k _ => ?_
  cases hrow : t.row k with
  | none => exact le_rfl
  | some r => exact h k r hrow

lemma sum_eq_zero (h : ∀ k r, t.row k = some r → f k r = 0) : t.sum f = 0 := by
  rw [sum_eq (s := t.ids.toFinset) fun k r hr => by simpa using t.row_mem k r hr]
  refine Finset.sum_eq_zero fun k _ => ?_
  cases hrow : t.row k with
  | none => rfl
  | some r => exact h k r hrow

lemma sum_change (h : ∀ j, j ≠ k → t'.row j = t.row j) :
    t'.sum f + (t.row k).elim 0 (f k) = t.sum f + (t'.row k).elim 0 (f k) := by
  let s : Finset κ := Insert.insert k (t.ids.toFinset ∪ t'.ids.toFinset)
  have hsum (u : Table κ ρ) (hu : ∀ k ∈ u.ids, k ∈ s) :
      u.sum f = (u.row k).elim 0 (f k) + (s.erase k).sum fun k => (u.row k).elim 0 (f k) := by
    rw [sum_eq fun k r hr => hu k (u.row_mem k r hr)]
    exact (Finset.add_sum_erase s (fun k => (u.row k).elim 0 (f k)) (Finset.mem_insert_self k _)).symm
  rw [hsum t (by simp +contextual [s]), hsum t' (by simp +contextual [s]),
    Finset.sum_congr rfl fun j hj => by rw [h j (Finset.ne_of_mem_erase hj)]]
  omega

lemma sum_eq_sum_of_key {κ' : Type} [DecidableEq κ'] {u : Table κ' ρ'} {g : κ' → ρ' → ℤ} (key : κ' → ρ' → κ)
    (hinj : ∀ j j' s s', u.row j = some s → u.row j' = some s' → key j s = key j' s' → j = j')
    (hleft : ∀ k r, t.row k = some r → f k r ≠ 0 → ∃ j s, u.row j = some s ∧ key j s = k)
    (hright : ∀ j s, u.row j = some s → (t.row (key j s)).elim 0 (f (key j s)) = g j s) : t.sum f = u.sum g := by
  have hrow {j : κ'} (hj : (u.row j).elim 0 (g j) ≠ 0) : (u.row j).isSome := by
    cases hs : u.row j with
    | none => simp [hs] at hj
    | some s => rfl
  have hvalue {j : κ'} (hj : (u.row j).isSome) :
      (u.row j).elim 0 (g j) = (t.row (key j ((u.row j).get hj))).elim 0 (f (key j ((u.row j).get hj))) := by
    obtain ⟨s, hs⟩ := Option.isSome_iff_exists.1 hj
    simp only [hs, Option.get_some]
    exact (hright j s hs).symm
  rw [sum_eq (t := u) (s := u.ids.toFinset) fun j s hs => by simpa using u.row_mem j s hs,
    sum_eq (t := t) (s := t.ids.toFinset) fun k r hr => by simpa using t.row_mem k r hr]
  refine (Finset.sum_bij_ne_zero (fun j _ hj => key j ((u.row j).get (hrow hj))) (fun j _ hj => ?_)
    (fun j _ hj j' _ hj' heq => ?_) (fun k _ hk => ?_) fun j _ hj => hvalue (hrow hj)).symm
  · by_contra hmem
    have hnone : t.row (key j ((u.row j).get (hrow hj))) = none := row_of_not_mem (by simpa using hmem)
    rw [hvalue (hrow hj), hnone] at hj
    exact hj rfl
  · exact hinj j j' _ _ (Option.some_get _).symm (Option.some_get _).symm heq
  · obtain ⟨r, hr, hne⟩ : ∃ r, t.row k = some r ∧ f k r ≠ 0 := by
      cases hr : t.row k with
      | none => simp [hr] at hk
      | some r => exact ⟨r, rfl, by simpa [hr] using hk⟩
    obtain ⟨j, s, hs, rfl⟩ := hleft k r hr hne
    have hj : (u.row j).elim 0 (g j) ≠ 0 := by
      rw [hs, Option.elim_some, ← hright j s hs]
      exact hk
    exact ⟨j, by simpa using u.row_mem j s hs, hj, by simp [hs]⟩

omit [DecidableEq κ] in
lemma sum_findMany {f : ρ → ℤ} :
    ((t.findMany p).map fun x => f x.2).sum = t.sum fun k r => if p k r then f r else 0 := by
  simp only [findMany, sum]
  induction t.ids with
  | nil => rfl
  | cons k ids ih =>
      rw [List.map_cons, List.sum_cons, ← ih]
      cases hrow : t.row k with
      | none => simp [hrow]
      | some r => by_cases hp : p k r <;> simp [hrow, hp]

end Table

end VaultRun.Data
