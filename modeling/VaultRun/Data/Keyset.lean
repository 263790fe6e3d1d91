import Mathlib.Data.List.Sort
import Mathlib.Order.Lattice
import Mathlib.Tactic.Common

/-!
Reading a changing collection page by page, the greatest keys first: a page begins after the key where the page
before it ended.
-/

namespace VaultRun.Data.Keyset

variable {α κ : Type*} [LinearOrder κ] (key : α → κ)

def sorted (rows : List α) : List α := rows.insertionSort fun a b => key b ≤ key a

def remaining (cursor : Option κ) (rows : List α) : List α :=
  (sorted key rows).filter fun r => cursor.all fun k => key r < k

def page (limit : ℕ) (cursor : Option κ) (rows : List α) : List α := (remaining key cursor rows).take limit

inductive Place (κ : Type*)
  | after (cursor : Option κ)
  | finished

def place (limit : ℕ) (cursor : Option κ) (rows : List α) : Place κ :=
  if limit < (remaining key cursor rows).length then .after ((page key limit cursor rows).getLast?.map key)
  else .finished

def Place.Past (k : κ) : Place κ → Prop
  | .after none => False
  | .after (some c) => c ≤ k
  | .finished => True

/-- What has been yielded from the collections read so far. -/
structure Covers (reads : List (List α)) (yielded : List α) (p : Place κ) : Prop where
  descending : yielded.Pairwise fun a b => key b < key a
  bounded : ∀ r ∈ yielded, p.Past (key r)
  found : ∀ r ∈ yielded, ∃ rows ∈ reads, r ∈ rows
  complete : ∀ k, p.Past k → (∀ rows ∈ reads, ∃ r ∈ rows, key r = k) → ∃ r ∈ yielded, key r = k

variable {key} {limit : ℕ} {cursor : Option κ} {rows : List α} {reads : List (List α)} {yielded : List α} {r : α}

lemma mem_remaining : r ∈ remaining key cursor rows ↔ r ∈ rows ∧ ∀ k ∈ cursor, key r < k := by
  rw [remaining, List.mem_filter, sorted, List.mem_insertionSort]
  cases cursor <;> simp

lemma sorted_descending (hkeys : (rows.map key).Nodup) : (sorted key rows).Pairwise fun a b => key b < key a := by
  have htotal : Std.Total fun a b : α => key b ≤ key a := ⟨fun a b => le_total (key b) (key a)⟩
  have htrans : IsTrans α fun a b : α => key b ≤ key a := ⟨fun _ _ _ hab hbc => hbc.trans hab⟩
  have hweak : (sorted key rows).Pairwise fun a b => key b ≤ key a := List.pairwise_insertionSort _ rows
  have hne : (sorted key rows).Pairwise fun a b => key a ≠ key b := by
    have hperm : ((sorted key rows).map key).Perm (rows.map key) := (List.perm_insertionSort _ rows).map key
    exact List.pairwise_map.1 (hperm.nodup_iff.2 hkeys)
  exact (hweak.and hne).imp fun h => lt_of_le_of_ne h.1 h.2.symm

lemma remaining_descending (hkeys : (rows.map key).Nodup) :
    (remaining key cursor rows).Pairwise fun a b => key b < key a :=
  (sorted_descending hkeys).filter _

lemma mem_of_mem_page (h : r ∈ page key limit cursor rows) : r ∈ remaining key cursor rows := List.mem_of_mem_take h

lemma mem_page_of_past (hkeys : (rows.map key).Nodup) (hr : r ∈ remaining key cursor rows)
    (hpast : (place key limit cursor rows).Past (key r)) : r ∈ page key limit cursor rows := by
  rw [place] at hpast
  split_ifs at hpast with hmore
  · rw [← List.take_append_drop limit (remaining key cursor rows), List.mem_append] at hr
    rcases hr with hr | hr
    · exact hr
    · cases hlast : (page key limit cursor rows).getLast? with
      | none =>
          rw [hlast] at hpast
          exact hpast.elim
      | some l =>
          rw [hlast] at hpast
          have hl : l ∈ page key limit cursor rows := List.mem_of_getLast? hlast
          have hsplit : (remaining key cursor rows).Pairwise fun a b => key b < key a := remaining_descending hkeys
          rw [← List.take_append_drop limit (remaining key cursor rows), List.pairwise_append] at hsplit
          exact absurd (hsplit.2.2 l hl r hr) (not_lt_of_ge hpast)
  · rw [page, List.take_of_length_le (not_lt.1 hmore)]
    exact hr

lemma past_of_mem_page (hkeys : (rows.map key).Nodup) (hr : r ∈ page key limit cursor rows) :
    (place key limit cursor rows).Past (key r) := by
  rw [place]
  split_ifs with hmore
  · cases hlast : (page key limit cursor rows).getLast? with
    | none =>
        rw [List.getLast?_eq_none_iff] at hlast
        rw [hlast] at hr
        cases hr
    | some l =>
        have hdesc : (page key limit cursor rows).Pairwise fun a b => key b < key a :=
          (remaining_descending hkeys).take
        obtain ⟨init, hinit⟩ := List.getLast?_eq_some_iff.1 hlast
        rw [hinit] at hr hdesc
        rcases List.mem_append.1 hr with hr | hr
        · exact ((List.pairwise_append.1 hdesc).2.2 r hr l List.mem_cons_self).le
        · rw [List.mem_singleton.1 hr]
          exact le_refl (key l)
  · trivial

lemma covers_start : Covers key [] [] (.after none) where
  descending := List.Pairwise.nil
  bounded _ h := by cases h
  found _ h := by cases h
  complete _ h := h.elim

lemma Covers.read (h : Covers key reads yielded (.after cursor)) (hlimit : 0 < limit) (hkeys : (rows.map key).Nodup) :
    Covers key (rows :: reads) (yielded ++ page key limit cursor rows) (place key limit cursor rows) where
  descending := by
    refine List.pairwise_append.2 ⟨h.descending, (remaining_descending hkeys).take, fun a ha b hb => ?_⟩
    have hpast := h.bounded a ha
    cases cursor with
    | none => exact hpast.elim
    | some c => exact ((mem_remaining.1 (mem_of_mem_page hb)).2 c rfl).trans_le hpast
  bounded r hr := by
    rcases List.mem_append.1 hr with hr | hr
    · have hpast := h.bounded r hr
      cases cursor with
      | none => exact hpast.elim
      | some c =>
          rw [place]
          split_ifs with hmore
          · cases hlast : (page key limit (some c) rows).getLast? with
            | none =>
                -- a page of some rows is not empty
                rw [List.getLast?_eq_none_iff, page, List.take_eq_nil_iff] at hlast
                rcases hlast with hzero | hnil
                · omega
                · rw [hnil] at hmore
                  exact absurd hmore (Nat.not_lt_zero _)
            | some l =>
                have hl := (mem_remaining.1 (mem_of_mem_page (List.mem_of_getLast? hlast))).2 c rfl
                exact (hl.le).trans hpast
          · trivial
    · exact past_of_mem_page hkeys hr
  found r hr := by
    rcases List.mem_append.1 hr with hr | hr
    · obtain ⟨rows', hrows, hmem⟩ := h.found r hr
      exact ⟨rows', List.mem_cons_of_mem _ hrows, hmem⟩
    · exact ⟨rows, List.mem_cons_self, (mem_remaining.1 (mem_of_mem_page hr)).1⟩
  complete k hpast hreads := by
    by_cases hbefore : (Place.after cursor).Past k
    · obtain ⟨r, hr, hk⟩ := h.complete k hbefore fun rows' hrows => hreads rows' (List.mem_cons_of_mem _ hrows)
      exact ⟨r, List.mem_append_left _ hr, hk⟩
    · obtain ⟨r, hr, rfl⟩ := hreads rows List.mem_cons_self
      refine ⟨r, List.mem_append_right _ (mem_page_of_past hkeys (mem_remaining.2 ⟨hr, fun c hc => ?_⟩) hpast), rfl⟩
      obtain rfl := Option.mem_def.1 hc
      exact not_le.1 hbefore

end VaultRun.Data.Keyset
