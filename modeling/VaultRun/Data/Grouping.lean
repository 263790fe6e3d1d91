import Mathlib

/-!
Elements put into groups by a key, in a map that keeps the order of insertion, and what is folded over each group: a
measure of the groups together is that of the elements.
-/

namespace VaultRun.Data.Grouping

variable {α κ β : Type} [DecidableEq κ]

/-- `m.set(k, f(m.get(k)))`. -/
def upsert (k : κ) (f : Option β → β) : List (κ × β) → List (κ × β)
  | [] => [(k, f none)]
  | (k', b) :: m => if k' = k then (k', f (some b)) :: m else (k', b) :: upsert k f m

def insert (key : α → κ) (fresh : α → β) (add : β → α → β) (m : List (κ × β)) (x : α) : List (κ × β) :=
  upsert (key x) (fun b => add (b.getD (fresh x)) x) m

def group (key : α → κ) (fresh : α → β) (add : β → α → β) (xs : List α) : List (κ × β) :=
  xs.foldl (insert key fresh add) []

section Upsert

variable {k : κ} {f : Option β → β} {m : List (κ × β)}

lemma mem_keys_upsert {a : κ} : a ∈ (upsert k f m).map Prod.fst ↔ a ∈ m.map Prod.fst ∨ a = k := by
  induction m with
  | nil => simp [upsert]
  | cons e m ih =>
      obtain ⟨k', b⟩ := e
      by_cases hk : k' = k
      · subst hk
        rw [upsert, if_pos rfl, List.map_cons, List.map_cons, List.mem_cons]
        tauto
      · rw [upsert, if_neg hk, List.map_cons, List.map_cons, List.mem_cons, List.mem_cons, ih]
        tauto

lemma nodup_keys_upsert (h : (m.map Prod.fst).Nodup) : ((upsert k f m).map Prod.fst).Nodup := by
  induction m with
  | nil => simp [upsert]
  | cons e m ih =>
      obtain ⟨k', b⟩ := e
      obtain ⟨hhead, htail⟩ := List.nodup_cons.1 h
      by_cases hk : k' = k
      · rw [upsert, if_pos hk]
        exact List.nodup_cons.2 ⟨hhead, htail⟩
      · rw [upsert, if_neg hk]
        refine List.nodup_cons.2 ⟨?_, ih htail⟩
        rw [mem_keys_upsert]
        exact not_or.2 ⟨hhead, hk⟩

lemma of_mem_upsert {e : κ × β} (h : e ∈ upsert k f m) :
    e ∈ m ∨ e = (k, f none) ∨ ∃ b, (k, b) ∈ m ∧ e = (k, f (some b)) := by
  induction m with
  | nil => exact .inr (.inl (List.mem_singleton.1 h))
  | cons e' m ih =>
      obtain ⟨k', b⟩ := e'
      rw [upsert] at h
      split at h
      · rename_i hk
        subst hk
        rcases List.mem_cons.1 h with rfl | h
        · exact .inr (.inr ⟨b, .head _, rfl⟩)
        · exact .inl (.tail _ h)
      · rcases List.mem_cons.1 h with rfl | h
        · exact .inl (.head _)
        · rcases ih h with h | h | ⟨b', hb', rfl⟩
          · exact .inl (.tail _ h)
          · exact .inr (.inl h)
          · exact .inr (.inr ⟨b', .tail _ hb', rfl⟩)

end Upsert

variable {key : α → κ} {fresh : α → β} {add : β → α → β} {m : List (κ × β)} {x : α} {xs : List α}

/-- What holds of a group that one element has started, and is kept as elements are added. -/
structure Kept (key : α → κ) (fresh : α → β) (add : β → α → β) (Q : α → Prop) (P : κ → β → Prop) : Prop where
  start : ∀ x, Q x → P (key x) (add (fresh x) x)
  add : ∀ b x, Q x → P (key x) b → P (key x) (add b x)

section Kept

variable {Q : α → Prop} {P : κ → β → Prop}

lemma kept_insert (hP : Kept key fresh add Q P) (hx : Q x) (h : ∀ e ∈ m, P e.1 e.2) :
    ∀ e ∈ insert key fresh add m x, P e.1 e.2 := by
  intro e he
  rcases of_mem_upsert he with he | rfl | ⟨b, hb, rfl⟩
  · exact h e he
  · exact hP.start x hx
  · exact hP.add b x hx (h _ hb)

lemma kept_foldl (hP : Kept key fresh add Q P) (hQ : ∀ x ∈ xs, Q x) (h : ∀ e ∈ m, P e.1 e.2) :
    ∀ e ∈ xs.foldl (insert key fresh add) m, P e.1 e.2 := by
  induction xs generalizing m with
  | nil => exact h
  | cons x xs ih => exact ih (fun y hy => hQ y (.tail _ hy)) (kept_insert hP (hQ x (.head _)) h)

lemma kept_group (hP : Kept key fresh add Q P) (hQ : ∀ x ∈ xs, Q x) : ∀ e ∈ group key fresh add xs, P e.1 e.2 :=
  kept_foldl hP hQ (by simp)

end Kept

lemma nodup_foldl (h : (m.map Prod.fst).Nodup) : ((xs.foldl (insert key fresh add) m).map Prod.fst).Nodup := by
  induction xs generalizing m with
  | nil => exact h
  | cons x xs ih => exact ih (nodup_keys_upsert h)

lemma nodup_group : ((group key fresh add xs).map Prod.fst).Nodup := nodup_foldl (by simp)

structure Measure (key : α → κ) (fresh : α → β) (add : β → α → β) (P : κ → β → Prop) (g : κ → β → ℤ) (w : α → ℤ) :
    Prop where
  start : ∀ x, g (key x) (add (fresh x) x) = w x
  add : ∀ b x, P (key x) b → g (key x) (add b x) = g (key x) b + w x

def total (g : κ → β → ℤ) (m : List (κ × β)) : ℤ := (m.map fun e => g e.1 e.2).sum

lemma total_insert {P : κ → β → Prop} {g : κ → β → ℤ} {w : α → ℤ} (hg : Measure key fresh add P g w)
    (h : ∀ e ∈ m, P e.1 e.2) : total g (insert key fresh add m x) = total g m + w x := by
  rw [insert]
  induction m with
  | nil => simp [upsert, total, hg.start]
  | cons e m ih =>
      obtain ⟨k, b⟩ := e
      by_cases hk : k = key x
      · subst hk
        rw [upsert, if_pos rfl, total, total, List.map_cons, List.map_cons, List.sum_cons, List.sum_cons]
        rw [Option.getD_some, hg.add b x (h _ (.head _)), add_right_comm]
      · rw [upsert, if_neg hk, total, List.map_cons, List.sum_cons]
        have hrest := ih fun e he => h e (.tail _ he)
        rw [total] at hrest
        rw [hrest, total, total, List.map_cons, List.sum_cons, add_assoc]

lemma total_foldl {Q : α → Prop} {P : κ → β → Prop} {g : κ → β → ℤ} {w : α → ℤ} (hP : Kept key fresh add Q P)
    (hg : Measure key fresh add P g w) (hQ : ∀ x ∈ xs, Q x) (h : ∀ e ∈ m, P e.1 e.2) :
    total g (xs.foldl (insert key fresh add) m) = total g m + (xs.map w).sum := by
  induction xs generalizing m with
  | nil => simp
  | cons x xs ih =>
      rw [List.foldl_cons, ih (fun y hy => hQ y (.tail _ hy)) (kept_insert hP (hQ x (.head _)) h), total_insert hg h,
        List.map_cons, List.sum_cons, add_assoc]

variable (xs) in
lemma total_group {Q : α → Prop} {P : κ → β → Prop} {g : κ → β → ℤ} {w : α → ℤ} (hP : Kept key fresh add Q P)
    (hg : Measure key fresh add P g w) (hQ : ∀ x ∈ xs, Q x) : total g (group key fresh add xs) = (xs.map w).sum := by
  rw [group, total_foldl hP hg hQ (by simp)]
  simp [total]

lemma total_at {g : β → ℤ} {k : κ} (hnodup : (m.map Prod.fst).Nodup) :
    total (fun k' b => if k' = k then g b else 0) m = (m.lookup k).elim 0 g := by
  induction m with
  | nil => rfl
  | cons e m ih =>
      obtain ⟨k', b⟩ := e
      obtain ⟨hhead, htail⟩ := List.nodup_cons.1 hnodup
      have hrest := ih htail
      rw [total] at hrest ⊢
      rw [List.map_cons, List.sum_cons, hrest]
      by_cases hk : k' = k
      · subst hk
        have hnone : m.lookup k' = none := by
          rw [List.lookup_eq_none_iff]
          intro e he
          have hne : k' ≠ e.1 := fun heq => hhead (List.mem_map.2 ⟨e, he, heq.symm⟩)
          simpa using hne
        simp [hnone]
      · have hne : (k == k') = false := by simpa using fun heq : k = k' => hk heq.symm
        simp [hk, List.lookup_cons, hne]

structure Mark (key : α → κ) (fresh : α → β) (add : β → α → β) (P : κ → β → Prop) (g : κ → β → Prop) (w : α → Prop) :
    Prop where
  start : ∀ x, g (key x) (add (fresh x) x) ↔ w x
  add : ∀ b x, P (key x) b → (g (key x) (add b x) ↔ g (key x) b ∨ w x)

lemma marked_insert {P g : κ → β → Prop} {w : α → Prop} (hg : Mark key fresh add P g w) (h : ∀ e ∈ m, P e.1 e.2) :
    (∃ e ∈ insert key fresh add m x, g e.1 e.2) ↔ (∃ e ∈ m, g e.1 e.2) ∨ w x := by
  rw [insert]
  induction m with
  | nil => simp [upsert, hg.start]
  | cons e m ih =>
      obtain ⟨k, b⟩ := e
      by_cases hk : k = key x
      · subst hk
        rw [upsert, if_pos rfl, List.exists_mem_cons_iff, List.exists_mem_cons_iff, Option.getD_some,
          hg.add b x (h _ (.head _))]
        exact or_right_comm
      · rw [upsert, if_neg hk, List.exists_mem_cons_iff, List.exists_mem_cons_iff, ih fun e he => h e (.tail _ he),
          or_assoc]

lemma marked_foldl {Q : α → Prop} {P g : κ → β → Prop} {w : α → Prop} (hP : Kept key fresh add Q P)
    (hg : Mark key fresh add P g w) (hQ : ∀ x ∈ xs, Q x) (h : ∀ e ∈ m, P e.1 e.2) :
    (∃ e ∈ xs.foldl (insert key fresh add) m, g e.1 e.2) ↔ (∃ e ∈ m, g e.1 e.2) ∨ ∃ x ∈ xs, w x := by
  induction xs generalizing m with
  | nil => simp
  | cons x xs ih =>
      rw [List.foldl_cons, ih (fun y hy => hQ y (.tail _ hy)) (kept_insert hP (hQ x (.head _)) h), marked_insert hg h,
        List.exists_mem_cons_iff, or_assoc]

lemma marked_group {Q : α → Prop} {P g : κ → β → Prop} {w : α → Prop} (hP : Kept key fresh add Q P)
    (hg : Mark key fresh add P g w) (hQ : ∀ x ∈ xs, Q x) :
    (∃ e ∈ group key fresh add xs, g e.1 e.2) ↔ ∃ x ∈ xs, w x := by
  rw [group, marked_foldl hP hg hQ (by simp)]
  simp

end VaultRun.Data.Grouping
