import Mathlib.Data.List.Nodup

/-!
Tables of rows with the queries and updates of a relational store, each of them atomic: tables keyed
by a column, and tables with generated ids and a unique column.
-/

namespace VaultRun.Data

variable {κ ρ υ : Type}

/-- `ids` lists the keys in the order of insertion. -/
structure Table (κ ρ : Type) where
  ids : List κ
  row : κ → Option ρ
  row_mem : ∀ k r, row k = some r → k ∈ ids
  nodup : ids.Nodup

namespace Table

def empty : Table κ ρ := ⟨[], fun _ => none, by simp, by simp⟩

instance : EmptyCollection (Table κ ρ) := ⟨empty⟩

def insert [DecidableEq κ] (t : Table κ ρ) (k : κ) (r : ρ) : Table κ ρ where
  ids := if k ∈ t.ids then t.ids else t.ids ++ [k]
  row := fun j => if j = k then some r else t.row j
  row_mem := by
    intro j s hj
    have hmem := t.row_mem j
    split_ifs at hj ⊢ <;> grind
  nodup := by
    have := t.nodup
    split_ifs <;> grind [List.nodup_append]

def updateMany (t : Table κ ρ) (p : κ → ρ → Bool) (f : ρ → ρ) : Table κ ρ where
  ids := t.ids
  row := fun j => (t.row j).map fun r => if p j r then f r else r
  row_mem := by
    intro j s hj
    obtain ⟨r, hr, -⟩ := Option.map_eq_some_iff.1 hj
    exact t.row_mem j r hr
  nodup := t.nodup

def erase [DecidableEq κ] (t : Table κ ρ) (k : κ) : Table κ ρ where
  ids := t.ids.filter (· ≠ k)
  row := fun j => if j = k then none else t.row j
  row_mem := by
    intro j s hj
    have hmem := t.row_mem j
    split_ifs at hj with hjk
    simp [hjk, hmem s hj]
  nodup := t.nodup.filter _

def findMany (t : Table κ ρ) (p : κ → ρ → Bool) : List (κ × ρ) :=
  (t.ids.filterMap fun k => (t.row k).map (k, ·)).filter fun kr => p kr.1 kr.2

def count (t : Table κ ρ) (p : κ → ρ → Bool) : ℕ := (t.findMany p).length

variable {t : Table κ ρ} {k j : κ} {r s : ρ} {p : κ → ρ → Bool} {f : ρ → ρ}

@[simp] lemma row_empty : (∅ : Table κ ρ).row k = none := rfl

@[simp] lemma row_insert [DecidableEq κ] :
    (t.insert k r).row j = if j = k then some r else t.row j := rfl

@[simp] lemma row_updateMany :
    (t.updateMany p f).row j = (t.row j).map fun r => if p j r then f r else r := rfl

@[simp] lemma row_erase [DecidableEq κ] : (t.erase k).row j = if j = k then none else t.row j := rfl

@[simp] lemma mem_findMany : (k, r) ∈ t.findMany p ↔ t.row k = some r ∧ p k r := by
  simp only [findMany, List.mem_filter, List.mem_filterMap, Option.map_eq_some_iff, Prod.mk.injEq]
  constructor
  · rintro ⟨⟨j, -, s, hs, rfl, rfl⟩, hp⟩
    exact ⟨hs, hp⟩
  · rintro ⟨hr, hp⟩
    exact ⟨⟨k, t.row_mem k r hr, r, hr, rfl, rfl⟩, hp⟩

lemma findMany_eq_nil : t.findMany p = [] ↔ ∀ k r, t.row k = some r → ¬ p k r := by
  rw [List.eq_nil_iff_forall_not_mem]
  constructor
  · intro h k r hr hp
    exact h (k, r) (mem_findMany.2 ⟨hr, hp⟩)
  · rintro h ⟨k, r⟩ hkr
    exact h k r (mem_findMany.1 hkr).1 (mem_findMany.1 hkr).2

lemma count_eq_zero : t.count p = 0 ↔ ∀ k r, t.row k = some r → ¬ p k r := by
  rw [count, List.length_eq_zero_iff, findMany_eq_nil]

lemma count_ne_zero : t.count p ≠ 0 ↔ ∃ k r, t.row k = some r ∧ p k r := by
  simp [count_eq_zero]

lemma count_le_one (hp : ∀ j r, p j r → j = k) : t.count p ≤ 1 := by
  have hnodup : (t.findMany p).Nodup := by
    refine List.Nodup.filter _ (t.nodup.filterMap ?_)
    intro a b c ha hb
    obtain ⟨r, -, rfl⟩ := Option.map_eq_some_iff.1 ha
    obtain ⟨r', -, hr'⟩ := Option.map_eq_some_iff.1 hb
    exact (Prod.mk.inj hr').1.symm
  have hkey (x : κ × ρ) (hx : x ∈ t.findMany p) : x.1 = k ∧ t.row k = some x.2 := by
    obtain ⟨hr, hpx⟩ := mem_findMany.1 hx
    have hk := hp _ _ hpx
    exact ⟨hk, hk ▸ hr⟩
  match hl : t.findMany p with
  | [] => simp [count, hl]
  | [x] => simp [count, hl]
  | x :: y :: xs =>
      obtain ⟨hx, hrx⟩ := hkey x (by simp [hl])
      obtain ⟨hy, hry⟩ := hkey y (by simp [hl])
      have hxy : x = y := Prod.ext (hx.trans hy.symm) (Option.some.inj (hrx.symm.trans hry))
      simp [hl, hxy] at hnodup

variable (t) in
lemma nodup_findMany : ((t.findMany p).map (·.1)).Nodup := by
  have hkeys (ids : List κ) : ((ids.filterMap fun k => (t.row k).map (k, ·)).map (·.1)).Sublist ids := by
    induction ids with
    | nil => simp
    | cons k ids ih =>
        cases hk : t.row k with
        | none => simpa [hk] using ih.cons k
        | some r => simpa [hk] using ih.cons_cons k
  exact t.nodup.sublist ((List.filter_sublist.map _).trans (hkeys t.ids))

lemma mem_take_findMany [DecidableEq κ] {n : ℕ} (h : (k, r) ∈ t.findMany p) :
    (k, r) ∈ (t.findMany p).take n ↔ ((t.findMany p).map (·.1)).idxOf k < n := by
  have hk : k ∈ (t.findMany p).map (·.1) := List.mem_map_of_mem h
  rw [← List.mem_take_iff_idxOf_lt hk, ← List.map_take]
  refine ⟨fun hmem => List.mem_map_of_mem hmem, fun hmem => ?_⟩
  obtain ⟨⟨j, s⟩, hjs, rfl⟩ := List.mem_map.1 hmem
  have hs := (mem_findMany.1 (List.mem_of_mem_take hjs)).1
  rwa [← Option.some.inj (hs.symm.trans (mem_findMany.1 h).1)]

/-- When the first row of a query is changed so that it does not satisfy the condition, the others are left. -/
lemma findMany_tail {t' : Table κ ρ} {x : κ × ρ} {xs : List (κ × ρ)} {r' : ρ} (h : t.findMany p = x :: xs)
    (hids : t'.ids = t.ids) (hr' : t'.row x.1 = some r') (hp : ¬ p x.1 r')
    (hothers : ∀ j, j ≠ x.1 → t'.row j = t.row j) : t'.findMany p = xs := by
  obtain ⟨hx, hpx⟩ := mem_findMany.1 (show (x.1, x.2) ∈ t.findMany p by simp [h])
  have hnodup := t.nodup
  unfold findMany at h ⊢
  rw [hids]
  generalize t.ids = ids at h hnodup ⊢
  induction ids with
  | nil => simp at h
  | cons j ids ih =>
      obtain ⟨hnot, hnodup⟩ := List.nodup_cons.1 hnodup
      by_cases hj : j = x.1
      · subst hj
        have hsame : (ids.filterMap fun k => (t'.row k).map (k, ·)) = ids.filterMap fun k => (t.row k).map (k, ·) :=
          List.filterMap_congr fun k hk => by rw [hothers k fun heq => hnot (heq ▸ hk)]
        simpa [hr', hp, hx, hsame, hpx] using h
      · cases hrow : t.row j with
        | none => simpa [hothers j hj, hrow] using ih (by simpa [hrow] using h) hnodup
        | some s =>
            by_cases hpj : p j s
            · simp only [List.filterMap_cons, hrow, Option.map_some, List.filter_cons, hpj, if_true,
                List.cons.injEq] at h
              exact absurd (congrArg Prod.fst h.1) hj
            · simpa [hothers j hj, hrow, hpj] using ih (by simpa [hrow, hpj] using h) hnodup

/-- The tables have the same keys in the same order, with rows that stand in `R`. -/
def Alike (R : κ → ρ → ρ → Prop) (t t' : Table κ ρ) : Prop :=
  t.ids = t'.ids ∧ ∀ k, Option.Rel (R k) (t.row k) (t'.row k)

lemma row_of_not_mem (h : k ∉ t.ids) : t.row k = none := by
  by_contra hne
  obtain ⟨r, hr⟩ := Option.ne_none_iff_exists'.1 hne
  exact h (t.row_mem k r hr)

section Alike

variable {R : κ → ρ → ρ → Prop} {t' : Table κ ρ} {β : Type}

lemma Alike.mono {S : κ → ρ → ρ → Prop} (h : t.Alike R t') (hS : ∀ k r r', R k r r' → S k r r') : t.Alike S t' := by
  refine ⟨h.1, fun k => ?_⟩
  have hrel := h.2 k
  generalize t.row k = x at hrel ⊢
  generalize t'.row k = y at hrel ⊢
  cases hrel with
  | none => exact .none
  | some hr => exact .some (hS k _ _ hr)

lemma alike_of_ids (hids : t.ids = t'.ids) (h : ∀ k ∈ t.ids, Option.Rel (R k) (t.row k) (t'.row k)) :
    t.Alike R t' := by
  refine ⟨hids, fun k => ?_⟩
  by_cases hk : k ∈ t.ids
  · exact h k hk
  · rw [row_of_not_mem hk, row_of_not_mem (hids ▸ hk)]
    exact .none

lemma Alike.row_eq_none (h : t.Alike R t') : t.row k = none ↔ t'.row k = none := by
  have hrel := h.2 k
  generalize t.row k = x at hrel ⊢
  generalize t'.row k = y at hrel ⊢
  cases hrel <;> simp

lemma Alike.map_findMany {g : κ × ρ → β} (h : t.Alike R t') (hp : ∀ k r r', R k r r' → p k r = p k r')
    (hg : ∀ k r r', t.row k = some r → R k r r' → p k r = true → g (k, r) = g (k, r')) :
    (t.findMany p).map g = (t'.findMany p).map g := by
  unfold findMany
  rw [h.1]
  induction t'.ids with
  | nil => rfl
  | cons k ids ih =>
      have hrel := h.2 k
      cases hr : t.row k <;> cases hr' : t'.row k <;> rw [hr, hr'] at hrel <;> cases hrel
      · simpa [hr, hr'] using ih
      · rename_i r r' hR
        cases hb : p k r with
        | false => simpa [hr, hr', ← hp k r r' hR, hb] using ih
        | true => simpa [hr, hr', ← hp k r r' hR, hb, hg k r r' hr hR hb] using ih

lemma Alike.count_eq (h : t.Alike R t') (hp : ∀ k r r', R k r r' → p k r = p k r') : t.count p = t'.count p := by
  have hlen := congrArg List.length (h.map_findMany (β := Unit) (g := fun _ => ()) hp fun _ _ _ _ _ _ => rfl)
  simpa [count] using hlen

lemma Alike.insert [DecidableEq κ] (h : t.Alike R t') (hr : R k r s) : (t.insert k r).Alike R (t'.insert k s) := by
  refine ⟨by simp [Table.insert, h.1], fun j => ?_⟩
  by_cases hj : j = k
  · subst hj
    simpa using Option.Rel.some hr
  · simpa [hj] using h.2 j

end Alike

end Table

/-- A table that gives out its ids in order and holds each value of the column `col` once. -/
structure Records (ρ : Type) {υ : Type} (col : ρ → υ) extends Table ℕ ρ where
  next : ℕ
  fresh : ∀ k r, row k = some r → k < next
  unique : ∀ j k r s, row j = some r → row k = some s → col r = col s → j = k

namespace Records

variable {col : ρ → υ}

def empty : Records ρ col := ⟨∅, 0, by simp, by simp⟩

instance : EmptyCollection (Records ρ col) := ⟨empty⟩

def findUnique [DecidableEq υ] (t : Records ρ col) (v : υ) : Option (ℕ × ρ) :=
  (t.findMany fun _ r => col r = v).head?

lemma findUnique_eq_some [DecidableEq υ] {t : Records ρ col} {v : υ} {k : ℕ} {r : ρ} :
    t.findUnique v = some (k, r) ↔ t.row k = some r ∧ col r = v := by
  constructor
  · intro h
    have hmem : (k, r) ∈ t.findMany fun _ r => col r = v := List.mem_of_mem_head? h
    simpa using hmem
  · rintro ⟨hr, hv⟩
    have hmem : (k, r) ∈ t.findMany fun _ r => col r = v := by simp [hr, hv]
    cases hl : t.findMany fun _ r => col r = v with
    | nil => simp [hl] at hmem
    | cons x xs =>
        have hx : x ∈ t.findMany fun _ r => col r = v := by simp [hl]
        obtain ⟨j, s⟩ := x
        obtain ⟨hs, hsv⟩ : t.row j = some s ∧ col s = v := by simpa using hx
        obtain rfl := t.unique j k s r hs hr (hsv.trans hv.symm)
        obtain rfl : s = r := Option.some.inj (hs.symm.trans hr)
        simp [findUnique, hl]

lemma findUnique_eq_none [DecidableEq υ] {t : Records ρ col} {v : υ} :
    t.findUnique v = none ↔ ∀ k r, t.row k = some r → col r ≠ v := by
  simp [findUnique, Table.findMany_eq_nil]

def create [DecidableEq υ] (t : Records ρ col) (r : ρ) (h : t.findUnique (col r) = none) : Records ρ col where
  toTable := t.toTable.insert t.next r
  next := t.next + 1
  fresh := by
    intro k s hk
    have hf := t.fresh k
    grind [Table.row_insert]
  unique := by
    have hu := t.unique
    have hf := findUnique_eq_none.1 h
    intro j k s s' hj hk hs
    grind [Table.row_insert]

def updateMany (t : Records ρ col) (p : ℕ → ρ → Bool) (f : ρ → ρ) (hf : ∀ r, col (f r) = col r) :
    Records ρ col where
  toTable := t.toTable.updateMany p f
  next := t.next
  fresh := by
    intro k s hk
    obtain ⟨r, hr, -⟩ := Option.map_eq_some_iff.1 hk
    exact t.fresh k r hr
  unique := by
    intro j k s s' hj hk hs
    obtain ⟨r, hr, rfl⟩ := Option.map_eq_some_iff.1 hj
    obtain ⟨r', hr', rfl⟩ := Option.map_eq_some_iff.1 hk
    exact t.unique j k r r' hr hr' (by grind)

def erase (t : Records ρ col) (k : ℕ) : Records ρ col where
  toTable := t.toTable.erase k
  next := t.next
  fresh := by
    intro j s hj
    have hf := t.fresh j s
    grind [Table.row_erase]
  unique := by
    have hu := t.unique
    intro j k s s' hj hk hs
    grind [Table.row_erase]

variable {t : Records ρ col} {k : ℕ} {r : ρ} {p : ℕ → ρ → Bool} {f : ρ → ρ}

@[simp] lemma row_empty : (∅ : Records ρ col).row k = none := rfl

@[simp] lemma row_create [DecidableEq υ] {h : t.findUnique (col r) = none} :
    (t.create r h).row k = if k = t.next then some r else t.row k := rfl

@[simp] lemma row_updateMany {hf : ∀ r, col (f r) = col r} :
    (t.updateMany p f hf).row k = (t.row k).map fun r => if p k r then f r else r := rfl

@[simp] lemma row_erase {j : ℕ} : (t.erase j).row k = if k = j then none else t.row k := rfl

@[simp] lemma next_create [DecidableEq υ] {h : t.findUnique (col r) = none} : (t.create r h).next = t.next + 1 := rfl

@[simp] lemma next_updateMany {hf : ∀ r, col (f r) = col r} :
    (t.updateMany p f hf).next = t.next := rfl

@[simp] lemma next_erase {j : ℕ} : (t.erase j).next = t.next := rfl

lemma eq_of_rows {t' : Records ρ col} (hids : t.ids = t'.ids) (hnext : t.next = t'.next)
    (hrow : ∀ k ∈ t.ids, t.row k = t'.row k) : t = t' := by
  have hrows : t.row = t'.row := by
    funext k
    by_cases hk : k ∈ t.ids
    · exact hrow k hk
    · rw [Table.row_of_not_mem hk, Table.row_of_not_mem (hids ▸ hk)]
  obtain ⟨⟨ids, row, _, _⟩, next, _, _⟩ := t
  obtain ⟨⟨ids', row', _, _⟩, next', _, _⟩ := t'
  obtain rfl : ids = ids' := hids
  obtain rfl : row = row' := hrows
  obtain rfl : next = next' := hnext
  rfl

lemma row_next : t.row t.next = none := by
  by_contra h
  obtain ⟨r, hr⟩ := Option.ne_none_iff_exists'.1 h
  exact absurd (t.fresh _ r hr) (by simp)

end Records

section Sweep

variable [DecidableEq κ] {t t₁ t₂ : Table κ ρ} {target : κ → Option ρ} {x : κ × ρ} {rem : List (κ × ρ)}

/-- A loop over the rows that a query has found: those that are left are as they were, and every other is as it is
going to be. -/
structure Sweep (t : Table κ ρ) (target : κ → Option ρ) (rem : List (κ × ρ)) (t₁ : Table κ ρ) : Prop where
  rows : ∀ k, t₁.row k = if k ∈ rem.map (·.1) then t.row k else target k
  found : ∀ x ∈ rem, t.row x.1 = some x.2
  nodup : (rem.map (·.1)).Nodup

namespace Sweep

lemma start {p : κ → ρ → Bool} {found : List (κ × ρ)} (hfound : found.Sublist (t.findMany p))
    (h : ∀ k, k ∉ found.map (·.1) → target k = t.row k) : Sweep t target found t := by
  refine ⟨fun k => ?_, fun y hy => (Table.mem_findMany.1 (hfound.subset hy)).1,
    (Table.nodup_findMany t).sublist (hfound.map _)⟩
  split
  · rfl
  · exact (h k ‹_›).symm

lemma head (h : Sweep t target (x :: rem) t₁) : t₁.row x.1 = some x.2 := by
  rw [h.rows, if_pos (by simp), h.found x (by simp)]

lemma head_row (h : Sweep t target (x :: rem) t₁) : t.row x.1 = some x.2 := h.found x (by simp)

lemma not_mem (h : Sweep t target (x :: rem) t₁) : x.1 ∉ rem.map (·.1) := (List.nodup_cons.1 h.nodup).1

lemma step (h : Sweep t target (x :: rem) t₁) (hself : t₂.row x.1 = target x.1)
    (hothers : ∀ k, k ≠ x.1 → t₂.row k = t₁.row k) : Sweep t target rem t₂ := by
  refine ⟨fun k => ?_, fun y hy => h.found y (List.mem_cons_of_mem _ hy), (List.nodup_cons.1 h.nodup).2⟩
  by_cases hk : k = x.1
  · subst hk
    rw [if_neg h.not_mem, hself]
  · rw [hothers k hk, h.rows]
    simp only [List.map_cons, List.mem_cons, hk, false_or]

lemma done (h : Sweep t target [] t₁) (k : κ) : t₁.row k = target k := by
  simpa using h.rows k

end Sweep

end Sweep

end VaultRun.Data
