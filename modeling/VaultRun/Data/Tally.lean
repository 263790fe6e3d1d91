import Mathlib.Data.Finset.Card
import Mathlib.Data.List.Count
import Mathlib.Data.List.Nodup
import Mathlib.Data.List.Perm.Basic

/-!
Votes counted one by one in a map that keeps the order of insertion, and its top: a value that most of the
votes are for is the top, whatever the order.
-/

namespace VaultRun.Data.Tally

variable {α : Type} [DecidableEq α]

/-- `votes.set(a, (votes.get(a) ?? 0) + 1)`. -/
def vote : List (α × ℕ) → α → List (α × ℕ)
  | [], a => [(a, 1)]
  | (b, n) :: votes, a => if b = a then (b, n + 1) :: votes else (b, n) :: vote votes a

def tally (xs : List α) : List (α × ℕ) := xs.foldl vote []

def top (votes : List (α × ℕ)) : Option α × ℕ :=
  votes.foldl (fun best v => if best.2 < v.2 then (some v.1, v.2) else best) (none, 0)

/-- Each value stands once, with as many votes as `f` says, and every value that has one stands. -/
structure Counts (f : α → ℕ) (votes : List (α × ℕ)) : Prop where
  nodup : (votes.map Prod.fst).Nodup
  mem : ∀ a n, (a, n) ∈ votes ↔ n = f a ∧ 0 < n

variable {f : α → ℕ} {votes : List (α × ℕ)} {a b : α} {n : ℕ} {xs ys : List α}

lemma mem_keys_vote : b ∈ (vote votes a).map Prod.fst ↔ b ∈ votes.map Prod.fst ∨ b = a := by
  induction votes with
  | nil => simp [vote]
  | cons v votes ih =>
      obtain ⟨c, n⟩ := v
      by_cases hc : c = a
      · subst hc
        simp only [vote, if_pos, List.map_cons, List.mem_cons]
        tauto
      · simp only [vote, if_neg hc, List.map_cons, List.mem_cons, ih]
        tauto

lemma nodup_keys_vote (h : (votes.map Prod.fst).Nodup) : ((vote votes a).map Prod.fst).Nodup := by
  induction votes with
  | nil => simp [vote]
  | cons v votes ih =>
      obtain ⟨c, n⟩ := v
      rw [List.map_cons, List.nodup_cons] at h
      by_cases hc : c = a
      · simpa [vote, hc] using h
      · rw [vote, if_neg hc, List.map_cons, List.nodup_cons, mem_keys_vote]
        exact ⟨fun hmem => hmem.elim h.1 hc, ih h.2⟩

lemma mem_vote_other (hb : b ≠ a) : (b, n) ∈ vote votes a ↔ (b, n) ∈ votes := by
  induction votes with
  | nil => simp [vote, hb]
  | cons v votes ih =>
      obtain ⟨c, m⟩ := v
      by_cases hc : c = a
      · subst hc
        simp [vote, hb]
      · simp [vote, hc, ih]

lemma mem_vote_self (h : (votes.map Prod.fst).Nodup) :
    (a, n) ∈ vote votes a ↔ (∃ m, (a, m) ∈ votes ∧ n = m + 1) ∨ (∀ m, (a, m) ∉ votes) ∧ n = 1 := by
  induction votes with
  | nil => simp [vote]
  | cons v votes ih =>
      obtain ⟨c, m⟩ := v
      rw [List.map_cons, List.nodup_cons] at h
      by_cases hc : c = a
      · subst hc
        have hnot (k : ℕ) : (c, k) ∉ votes := fun hk => h.1 (List.mem_map.2 ⟨(c, k), hk, rfl⟩)
        simp only [vote, if_pos, List.mem_cons, Prod.mk.injEq, true_and, hnot, or_false]
        constructor
        · exact fun hn => .inl ⟨m, rfl, hn⟩
        · rintro (⟨k, rfl, hn⟩ | ⟨hnone, -⟩)
          · exact hn
          · exact absurd rfl (hnone m)
      · have hne : ¬ a = c := fun hac => hc hac.symm
        simp only [vote, if_neg hc, List.mem_cons, Prod.mk.injEq, hne, false_and, false_or, ih h.2]

lemma Counts.vote (h : Counts f votes) (a : α) :
    Counts (fun b => if b = a then f b + 1 else f b) (vote votes a) where
  nodup := nodup_keys_vote h.nodup
  mem b n := by
    by_cases hb : b = a
    · subst hb
      rw [mem_vote_self h.nodup, if_pos rfl]
      constructor
      · rintro (⟨m, hm, rfl⟩ | ⟨hnone, rfl⟩)
        · have := (h.mem b m).1 hm
          omega
        · have hzero : ¬ 0 < f b := fun hpos => hnone (f b) ((h.mem b (f b)).2 ⟨rfl, hpos⟩)
          omega
      · rintro ⟨rfl, -⟩
        by_cases hpos : 0 < f b
        · exact .inl ⟨f b, (h.mem b (f b)).2 ⟨rfl, hpos⟩, rfl⟩
        · refine .inr ⟨fun m hm => ?_, by omega⟩
          have := (h.mem b m).1 hm
          omega
    · rw [mem_vote_other hb, if_neg hb, h.mem]

lemma counts_foldl (xs : List α) (h : Counts f votes) : Counts (fun b => f b + xs.count b) (xs.foldl Tally.vote votes) := by
  induction xs generalizing f votes with
  | nil => simpa using h
  | cons x xs ih =>
      have hnext := ih (h.vote x)
      refine ⟨hnext.nodup, fun b n => ?_⟩
      rw [List.foldl_cons, hnext.mem]
      by_cases hb : b = x
      · subst hb
        rw [if_pos rfl, List.count_cons_self]
        omega
      · have hx : ¬ x = b := fun hxb => hb hxb.symm
        rw [if_neg hb, List.count_cons_of_ne hx]

lemma counts_tally (xs : List α) : Counts (fun b => xs.count b) (tally xs) := by
  have hempty : Counts (fun _ : α => 0) [] := ⟨by simp, fun a n => by simp +contextual⟩
  have hfold := counts_foldl xs hempty
  simp only [Nat.zero_add] at hfold
  exact hfold

section Top

omit [DecidableEq α]

lemma top_foldl (votes : List (α × ℕ)) (best : Option α × ℕ) :
    let t := votes.foldl (fun best v => if best.2 < v.2 then (some v.1, v.2) else best) best
    best.2 ≤ t.2 ∧ (∀ v ∈ votes, v.2 ≤ t.2) ∧ (t = best ∨ ∃ a, t.1 = some a ∧ (a, t.2) ∈ votes) := by
  induction votes generalizing best with
  | nil => simp
  | cons v votes ih =>
      obtain ⟨hbest, hall, hmem⟩ := ih (if best.2 < v.2 then (some v.1, v.2) else best)
      rw [List.foldl_cons]
      by_cases hlt : best.2 < v.2
      · rw [if_pos hlt] at hbest hall hmem ⊢
        refine ⟨le_trans (Nat.le_of_lt hlt) hbest, ?_, ?_⟩
        · rintro w (_ | ⟨_, hw⟩)
          · exact hbest
          · exact hall w hw
        · rcases hmem with heq | ⟨a, ha, hin⟩
          · exact .inr ⟨v.1, by rw [heq], by rw [heq]; exact List.mem_cons_self⟩
          · exact .inr ⟨a, ha, List.mem_cons_of_mem _ hin⟩
      · rw [if_neg hlt] at hbest hall hmem ⊢
        refine ⟨hbest, ?_, ?_⟩
        · rintro w (_ | ⟨_, hw⟩)
          · exact le_trans (Nat.le_of_not_lt hlt) hbest
          · exact hall w hw
        · exact hmem.imp_right fun ⟨a, ha, hin⟩ => ⟨a, ha, List.mem_cons_of_mem _ hin⟩

lemma le_top {v : α × ℕ} (hv : v ∈ votes) : v.2 ≤ (top votes).2 := (top_foldl votes (none, 0)).2.1 v hv

lemma top_mem (h : (top votes).1 = some a) : (a, (top votes).2) ∈ votes := by
  rcases (top_foldl votes (none, 0)).2.2 with heq | ⟨b, hb, hin⟩
  · have hnone : (top votes).1 = none := congrArg Prod.fst heq
    rw [hnone] at h
    cases h
  · obtain rfl := Option.some.inj (h.symm.trans hb)
    exact hin

lemma top_eq_none (h : (top votes).1 = none) : (top votes).2 = 0 := by
  rcases (top_foldl votes (none, 0)).2.2 with heq | ⟨b, hb, -⟩
  · exact congrArg Prod.snd heq
  · rw [top, hb] at h
    cases h

end Top

lemma count_add_count_le (hab : b ≠ a) (xs : List α) : xs.count a + xs.count b ≤ xs.length := by
  induction xs with
  | nil => simp
  | cons x xs ih =>
      rw [List.length_cons]
      by_cases ha : x = a
      · subst ha
        rw [List.count_cons_self, List.count_cons_of_ne (Ne.symm hab)]
        omega
      · rw [List.count_cons_of_ne ha]
        have hle : (x :: xs).count b ≤ xs.count b + 1 := by
          rw [List.count_cons]
          split <;> omega
        omega

lemma top_of_majority (h : xs.length < 2 * xs.count a) :
    top (tally xs) = (some a, xs.count a) := by
  have hcounts := counts_tally xs
  have hin : (a, xs.count a) ∈ tally xs := (hcounts.mem a _).2 ⟨rfl, by omega⟩
  have hle := le_top hin
  dsimp only at hle
  cases htop : (top (tally xs)).1 with
  | none =>
      have := top_eq_none htop
      omega
  | some b =>
      have hb := (hcounts.mem b _).1 (top_mem htop)
      have hab : b = a := by
        by_contra hne
        have hsum := count_add_count_le hne xs
        omega
      subst hab
      exact Prod.ext htop hb.1

lemma not_tied_of_majority (h : xs.length < 2 * xs.count a) :
    ((tally xs).filter fun v => v.2 = xs.count a).length ≤ 1 := by
  have hcounts := counts_tally xs
  have hnodup : ((tally xs).filter fun v => v.2 = xs.count a).Nodup := (hcounts.nodup.of_map _).filter _
  have honly : ((tally xs).filter fun v => v.2 = xs.count a) ⊆ [(a, xs.count a)] := by
    rintro ⟨b, n⟩ hmem
    obtain ⟨hin, hn⟩ : (b, n) ∈ tally xs ∧ n = xs.count a := by simpa using hmem
    have hb := ((hcounts.mem b n).1 hin).1
    have hab : b = a := by
      by_contra hne
      have hsum := count_add_count_le hne xs
      omega
    simp [hab, hn]
  exact (hnodup.subperm honly).length_le

lemma countP_le_card {β : Type} {p : β → Bool} {zs : List β} {s : Finset ℕ}
    (h : ∀ i z, zs[i]? = some z → p z → i ∈ s) : zs.countP p ≤ s.card := by
  induction zs using List.reverseRecOn generalizing s with
  | nil => simp
  | append_singleton zs z ih =>
      have hprefix : zs.countP p ≤ (s.erase zs.length).card := by
        refine ih fun i y hi hy => ?_
        have hlt : i < zs.length := (List.getElem?_eq_some_iff.1 hi).1
        exact Finset.mem_erase.2 ⟨by omega, h i y (by rw [List.getElem?_append_left hlt, hi]) hy⟩
      rw [List.countP_append, List.countP_singleton]
      by_cases hz : p z
      · have hmem : zs.length ∈ s := h zs.length z (by simp) hz
        rw [if_pos hz]
        rw [Finset.card_erase_of_mem hmem] at hprefix
        have hpos : 0 < s.card := Finset.card_pos.2 ⟨_, hmem⟩
        omega
      · rw [if_neg hz]
        exact hprefix.trans (Finset.card_erase_le)

end VaultRun.Data.Tally
