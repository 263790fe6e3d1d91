import VaultRun.Data.Tally

/-!
The block oracle of the salt provider: the endpoints it asks one after the other, and the vote among the hashes
they report for a finalized block.
-/

namespace VaultRun.Fairness.EthBlock

open VaultRun.Data.Tally

inductive Tag
  | finalized
  | number (target : ℕ)

/-- What a big integer comes to as a number: an integer, or an infinity. -/
inductive Number
  | negInf
  | int (n : ℤ)
  | posInf

def Number.below : Number → Number → Bool
  | .int m, .int n => m < n
  | .negInf, .negInf => false
  | .negInf, _ | .int _, .posInf => true
  | _, _ => false

/-- The fields of a block as an endpoint sends them, absent where they are falsy: what `Number(BigInt(number))`
comes to or that it throws, and `String(hash).toLowerCase()`. -/
structure RpcBlock where
  number : Option (Except Unit Number)
  hash : Option String

structure Block where
  number : Number
  hash : String

/-- What `call` comes to at an endpoint: it throws, or it returns a block or nothing. -/
abbrev Endpoint := Tag → Except Unit (Option RpcBlock)

def getBlock (e : Endpoint) (tag : Tag) : Except Unit (Option Block) := do
  match ← e tag with
  | none => pure none
  | some b =>
      match b.number, b.hash with
      | some number, some hash => do
          let n ← number
          pure (some ⟨n, hash⟩)
      | _, _ => pure none

/-- One turn of the loop over the endpoints, which skips what throws: the votes so far, and whether the target
is finalized somewhere. -/
def poll (target : ℕ) (acc : List (String × ℕ) × Bool) (e : Endpoint) : List (String × ℕ) × Bool :=
  match getBlock e .finalized with
  | .ok (some head) =>
      if head.number.below (.int target) then acc
      else
        match getBlock e (.number target) with
        | .ok (some blk) => if blk.hash = "" then (acc.1, true) else (vote acc.1 blk.hash, true)
        | _ => (acc.1, true)
  | _ => acc

/-- `finalizedBlockHash`, over the configured endpoints; it throws where they are too few. -/
def finalizedBlockHash (minRpcs : ℕ) (urls : List Endpoint) (target : ℕ) : Except Unit (Option String) :=
  if urls.length < minRpcs then .error ()
  else
    let need := urls.length / 2 + 1
    let polled := urls.foldl (poll target) ([], false)
    let votes := polled.1
    if !polled.2 then .ok none
    else
      let best := top votes
      let tiedForTop : Bool := 1 < (votes.filter fun v => v.2 = best.2).length
      if best.2 = 0 || tiedForTop then .ok none
      else if need ≤ best.2 then .ok best.1
      else .ok none

/-- The hash that an endpoint reports for the target, if its finalized head is at or past it. -/
def reported (target : ℕ) (e : Endpoint) : Option String :=
  match getBlock e .finalized with
  | .ok (some head) =>
      if head.number.below (.int target) then none
      else
        match getBlock e (.number target) with
        | .ok (some blk) => if blk.hash = "" then none else some blk.hash
        | _ => none
  | _ => none

variable {target minRpcs : ℕ} {urls : List Endpoint} {e : Endpoint} {acc : List (String × ℕ) × Bool} {h : String}

lemma poll_votes : (poll target acc e).1 = (reported target e).elim acc.1 (vote acc.1) := by
  unfold poll reported
  split
  · split
    · rfl
    · split
      · split <;> rfl
      · rfl
  · rfl

lemma poll_finalized (ha : acc.2 = true) : (poll target acc e).2 = true := by
  unfold poll
  split
  · split
    · exact ha
    · split
      · split <;> rfl
      · rfl
  · exact ha

lemma poll_of_reported (hr : reported target e ≠ none) : (poll target acc e).2 = true := by
  unfold reported at hr
  unfold poll
  split at hr
  · split at hr
    · exact absurd rfl hr
    · rename_i hlt
      rw [if_neg hlt]
      split at hr
      · split <;> rfl
      · exact absurd rfl hr
  · exact absurd rfl hr

lemma foldl_poll_votes : (urls.foldl (poll target) acc).1 = (urls.filterMap (reported target)).foldl vote acc.1 := by
  induction urls generalizing acc with
  | nil => rfl
  | cons e urls ih =>
      rw [List.foldl_cons, ih, poll_votes]
      cases hr : reported target e with
      | none => rw [List.filterMap_cons_none hr, Option.elim_none]
      | some h => rw [List.filterMap_cons_some hr, Option.elim_some, List.foldl_cons]

lemma foldl_poll_finalized (ha : acc.2 = true) : (urls.foldl (poll target) acc).2 = true := by
  induction urls generalizing acc with
  | nil => exact ha
  | cons e urls ih => exact ih (poll_finalized ha)

lemma foldl_poll_of_reported (hr : ∃ e ∈ urls, reported target e ≠ none) :
    (urls.foldl (poll target) acc).2 = true := by
  induction urls generalizing acc with
  | nil => simp at hr
  | cons e urls ih =>
      obtain ⟨x, hx, hrep⟩ := hr
      rcases List.mem_cons.1 hx with rfl | hx
      · rw [List.foldl_cons]
        exact foldl_poll_finalized (poll_of_reported hrep)
      · exact ih ⟨x, hx, hrep⟩

def agreeing (target : ℕ) (urls : List Endpoint) (h : String) : ℕ := urls.countP fun e => reported target e = some h

lemma count_reported : (urls.filterMap (reported target)).count h = agreeing target urls h := by
  rw [agreeing, List.count, List.countP_filterMap]
  refine List.countP_congr fun e _ => ?_
  cases reported target e with
  | none => simp
  | some x => simp

lemma length_reported_le : (urls.filterMap (reported target)).length ≤ urls.length := List.length_filterMap_le _ _

/-- A hash is returned exactly where more than half of the configured endpoints report it. -/
lemma finalizedBlockHash_eq_some (hmin : minRpcs ≤ urls.length) :
    finalizedBlockHash minRpcs urls target = .ok (some h) ↔ urls.length < 2 * agreeing target urls h := by
  have hvotes : (urls.foldl (poll target) ([], false)).1 = tally (urls.filterMap (reported target)) := foldl_poll_votes
  have hcounts := counts_tally (urls.filterMap (reported target))
  unfold finalizedBlockHash
  rw [if_neg (by omega)]
  dsimp only
  rw [hvotes]
  constructor
  · intro hres
    split at hres
    · cases hres
    split at hres
    · cases hres
    split at hres
    · rename_i hneed
      have hbest : (top (tally (urls.filterMap (reported target)))).1 = some h := Except.ok.inj hres
      have hmem := (hcounts.mem h _).1 (top_mem hbest)
      rw [count_reported] at hmem
      omega
    · cases hres
  · intro hmajority
    have hreports : (urls.filterMap (reported target)).length < 2 * (urls.filterMap (reported target)).count h := by
      rw [count_reported]
      exact length_reported_le.trans_lt hmajority
    have hin : ∃ e ∈ urls, reported target e ≠ none := by
      obtain ⟨e, he, hrep⟩ := List.countP_pos_iff.1 (show 0 < agreeing target urls h by omega)
      exact ⟨e, he, by simp_all⟩
    have htie : ¬ 1 < ((tally (urls.filterMap (reported target))).filter fun v =>
        v.2 = agreeing target urls h).length := by
      have hle := not_tied_of_majority hreports
      rw [count_reported] at hle
      omega
    rw [foldl_poll_of_reported hin, if_neg (by decide), top_of_majority hreports, count_reported]
    dsimp only
    rw [if_neg (by simp [htie]; omega), if_pos (by omega)]

lemma reported_eq_some : reported target e = some h ↔ ∃ head blk, getBlock e .finalized = .ok (some head) ∧
    ¬ head.number.below (.int target) ∧ getBlock e (.number target) = .ok (some blk) ∧ blk.hash ≠ "" ∧ blk.hash = h := by
  unfold reported
  constructor
  · intro hr
    split at hr
    · rename_i head hhead
      split at hr
      · cases hr
      · rename_i hlt
        split at hr
        · split at hr
          · cases hr
          · exact ⟨head, _, hhead, hlt, ‹_›, ‹_›, Option.some.inj hr⟩
        · cases hr
    · cases hr
  · rintro ⟨head, blk, hhead, hle, hblk, hne, rfl⟩
    rw [hhead]
    dsimp only
    rw [if_neg hle, hblk]
    exact if_neg hne

lemma finalizedBlockHash_ok (hmin : minRpcs ≤ urls.length) : ∃ r, finalizedBlockHash minRpcs urls target = .ok r := by
  unfold finalizedBlockHash
  rw [if_neg (by omega)]
  dsimp only
  split_ifs <;> exact ⟨_, rfl⟩

lemma finalizedBlockHash_perm {others : List Endpoint} (hperm : urls.Perm others) :
    finalizedBlockHash minRpcs others target = finalizedBlockHash minRpcs urls target := by
  have hlength : others.length = urls.length := hperm.length_eq.symm
  by_cases hmin : minRpcs ≤ urls.length
  · have hsame (h : String) : finalizedBlockHash minRpcs others target = .ok (some h) ↔
        finalizedBlockHash minRpcs urls target = .ok (some h) := by
      rw [finalizedBlockHash_eq_some (by omega), finalizedBlockHash_eq_some hmin, hlength, agreeing, agreeing,
        hperm.countP_eq]
    obtain ⟨r, hr⟩ : ∃ r, finalizedBlockHash minRpcs others target = .ok r := finalizedBlockHash_ok (by omega)
    obtain ⟨r', hr'⟩ : ∃ r, finalizedBlockHash minRpcs urls target = .ok r := finalizedBlockHash_ok hmin
    rw [hr, hr'] at hsame ⊢
    cases r with
    | some h => exact (((hsame h).1 rfl).symm ▸ rfl)
    | none =>
        cases r' with
        | some h => cases (hsame h).2 rfl
        | none => rfl
  · unfold finalizedBlockHash
    rw [if_pos (by omega), if_pos (by omega)]

/-- A hash is returned on the word of more than half of the configured endpoints, in whatever order they are
asked; and where all but a minority fail, lag or report one hash, no other is returned. -/
theorem majority_decides (hmin : minRpcs ≤ urls.length) :
    (∀ h, finalizedBlockHash minRpcs urls target = .ok (some h) → urls.length < 2 * agreeing target urls h) ∧
    (∀ others : List Endpoint, urls.Perm others →
      finalizedBlockHash minRpcs others target = finalizedBlockHash minRpcs urls target) ∧
    ∀ (bad : Finset ℕ) (honest : String), bad.card ≤ urls.length / 2 →
      (∀ i e, urls[i]? = some e → i ∉ bad → reported target e = none ∨ reported target e = some honest) →
      finalizedBlockHash minRpcs urls target = .ok (some honest) ∨
        finalizedBlockHash minRpcs urls target = .ok none := by
  refine ⟨fun h => (finalizedBlockHash_eq_some hmin).1, fun others => finalizedBlockHash_perm, ?_⟩
  intro bad honest hcard hgood
  obtain ⟨r, hr⟩ : ∃ r, finalizedBlockHash minRpcs urls target = .ok r := finalizedBlockHash_ok hmin
  rw [hr]
  cases r with
  | none => exact .inr rfl
  | some h =>
      left
      by_contra hne
      have hother : h ≠ honest := fun heq => hne (by rw [heq])
      have hmajority := (finalizedBlockHash_eq_some hmin).1 hr
      have hfew : agreeing target urls h ≤ bad.card := by
        refine countP_le_card fun i e hi hrep => ?_
        by_contra hnot
        have hrep' : reported target e = some h := by simpa using hrep
        rcases hgood i e hi hnot with hnone | hsome
        · rw [hnone] at hrep'
          cases hrep'
        · exact hother (Option.some.inj (hrep'.symm.trans hsome))
      omega

def answering (hash : String) : Endpoint := fun _ => .ok (some ⟨some (.ok (.int 100)), some hash⟩)

def down : Endpoint := fun _ => .error ()

lemma reported_down : reported 90 down = none := rfl

lemma reported_answering (hne : h ≠ "") : reported 90 (answering h) = some h := if_neg hne

lemma liar_alone : ∀ i e, [answering "0xaa", down, answering "0xbb"][i]? = some e → i ∉ ({2} : Finset ℕ) →
    reported 90 e = none ∨ reported 90 e = some "0xaa"
  | 0, e, hi, _ => by
      obtain rfl : answering "0xaa" = e := Option.some.inj hi
      exact .inr (reported_answering (by decide))
  | 1, e, hi, _ => by
      obtain rfl : down = e := Option.some.inj hi
      exact .inl reported_down
  | 2, _, _, hnot => absurd (Finset.mem_singleton_self 2) hnot

/-- Of three endpoints one lies and one is down: the liar's hash is not returned. -/
theorem liar_not_believed :
    finalizedBlockHash 3 [answering "0xaa", down, answering "0xbb"] 90 = .ok (some "0xaa") ∨
      finalizedBlockHash 3 [answering "0xaa", down, answering "0xbb"] 90 = .ok none :=
  (majority_decides (by decide)).2.2 {2} "0xaa" (by decide) liar_alone

end VaultRun.Fairness.EthBlock
