import VaultRun.Ledger.Stage

/-!
The integrity of the internal ledger: its balances are what its rows add up to, whatever calls run at once.
-/

namespace VaultRun.Safety.LedgerIntegrity

open VaultRun.Concurrency VaultRun.Ledger

def total (walletId : ℕ) (rows : List Row) : ℤ :=
  ((rows.filter (·.walletId = walletId)).map (·.amount)).sum

/-- One row enters the journal, under a new key, and its wallet moves by its amount. -/
structure Posts (σ σ' : State) (row : Row) : Prop where
  journal : σ'.journal = row :: σ.journal
  key : ∀ r ∈ σ.journal, r.idempotencyKey ≠ row.idempotencyKey
  wallet : ∃ balance, σ.wallets row.walletId = some balance ∧ row.balanceAfter = balance + row.amount
  wallets : ∀ w, σ'.wallets w = if w = row.walletId then some row.balanceAfter else σ.wallets w
  nonneg : 0 ≤ row.balanceAfter

def Untouched (σ σ' : State) : Prop := σ'.wallets = σ.wallets ∧ σ'.journal = σ.journal

structure Balanced (start : ℕ → Option ℤ) (σ : State) : Prop where
  balance : ∀ w, σ.wallets w = (start w).map (· + total w σ.journal)
  nonneg : ∀ w b, σ.wallets w = some b → 0 ≤ b
  balanceAfter : ∀ newer row older, σ.journal = newer ++ row :: older →
    (start row.walletId).map (· + total row.walletId (row :: older)) = some row.balanceAfter
  keys : (σ.journal.map (·.idempotencyKey)).Nodup

section Books

variable {start : ℕ → Option ℤ} {σ σ' : State} {row : Row}

lemma total_cons {w : ℕ} {rows : List Row} :
    total w (row :: rows) = (if row.walletId = w then row.amount else 0) + total w rows := by
  by_cases h : row.walletId = w
  · simp [total, h]
  · simp [total, h]

lemma Balanced.untouched (h : Balanced start σ) (hu : Untouched σ σ') : Balanced start σ' := by
  obtain ⟨hw, hj⟩ := hu
  exact ⟨by rw [hw, hj]; exact h.balance, by rw [hw]; exact h.nonneg, by rw [hj]; exact h.balanceAfter,
    by rw [hj]; exact h.keys⟩

lemma Balanced.post (h : Balanced start σ) (hp : Posts σ σ' row) : Balanced start σ' := by
  obtain ⟨balance, hbalance, hafter⟩ := hp.wallet
  have hstart : (start row.walletId).map (· + total row.walletId (row :: σ.journal)) = some row.balanceAfter := by
    have hb := h.balance row.walletId
    rw [hbalance] at hb
    obtain ⟨b, hb, hsum⟩ := Option.map_eq_some_iff.1 hb.symm
    rw [hb, total_cons, if_pos rfl, Option.map_some, Option.some.injEq]
    omega
  refine ⟨fun w => ?_, fun w b hb => ?_, fun newer r older hl => ?_, ?_⟩
  · rw [hp.wallets, hp.journal]
    by_cases hw : w = row.walletId
    · rw [if_pos hw, hw, hstart]
    · rw [if_neg hw, h.balance, total_cons, if_neg (Ne.symm hw)]
      simp
  · rw [hp.wallets] at hb
    split_ifs at hb
    · obtain rfl := Option.some.inj hb
      exact hp.nonneg
    · exact h.nonneg w b hb
  · rw [hp.journal] at hl
    cases newer with
    | nil =>
        obtain ⟨rfl, rfl⟩ := List.cons.inj hl
        exact hstart
    | cons x newer => exact h.balanceAfter newer r older (List.cons.inj hl).2
  · rw [hp.journal, List.map_cons, List.nodup_cons]
    refine ⟨fun hmem => ?_, h.keys⟩
    obtain ⟨r, hr, hk⟩ := List.mem_map.1 hmem
    exact hp.key r hr hk

lemma balanced_of_empty (hj : σ.journal = []) (hw : ∀ w b, σ.wallets w = some b → 0 ≤ b) :
    Balanced σ.wallets σ := by
  refine ⟨fun w => ?_, hw, fun newer row older hl => ?_, by simp [hj]⟩
  · rw [hj]
    simp [total]
  · rw [hj] at hl
    simp at hl

end Books

section Transactions

variable {σ σ' : State} {i j : ℕ} {tx : Tx} {m : Stage} {o : Oracle} {s : Stmt} {r : ledger.Reply s}

/-- The open transaction of a call holds what the call has done, and the locks for it. -/
def Matches (σ : State) (i : ℕ) (tx : Tx) : Stage → Prop
  | .idle | .posted => False
  | .begun => tx = {}
  | .locked id => tx = {} ∧ (σ.wallets id ≠ none → σ.locks id = some i)
  | .read id balance => tx = {} ∧ σ.locks id = some i ∧ σ.wallets id = some balance
  | .updated id balance balanceAfter =>
      tx = { wallets := fun w => if w = id then some balanceAfter else none } ∧ σ.locks id = some i ∧
        σ.wallets id = some balance ∧ 0 ≤ balanceAfter
  | .created row =>
      tx = ⟨fun w => if w = row.walletId then some row.balanceAfter else none, [row]⟩ ∧
        σ.locks row.walletId = some i ∧
        (∃ balance, σ.wallets row.walletId = some balance ∧ row.balanceAfter = balance + row.amount) ∧
        0 ≤ row.balanceAfter ∧ σ.claims row.idempotencyKey = some i ∧
        ∀ r ∈ σ.journal, r.idempotencyKey ≠ row.idempotencyKey

structure Spares (j : ℕ) (σ σ' : State) : Prop where
  txs : σ'.txs j = σ.txs j
  locks : ∀ id, σ.locks id = some j → σ'.locks id = some j ∧ σ'.wallets id = σ.wallets id
  missing : ∀ id, σ'.wallets id = none ↔ σ.wallets id = none
  claims : ∀ key, σ.claims key = some j → σ'.claims key = some j ∧
    ((∀ r ∈ σ.journal, r.idempotencyKey ≠ key) → ∀ r ∈ σ'.journal, r.idempotencyKey ≠ key)

lemma Matches.spared (h : Matches σ j tx m) (hs : Spares j σ σ') : Matches σ' j tx m := by
  cases m with
  | idle | posted => exact h
  | begun => exact h
  | locked id => exact ⟨h.1, fun hw => (hs.locks id (h.2 fun hn => hw ((hs.missing id).2 hn))).1⟩
  | read id balance =>
      obtain ⟨htx, hl, hw⟩ := h
      obtain ⟨hl', hw'⟩ := hs.locks id hl
      exact ⟨htx, hl', hw'.trans hw⟩
  | updated id balance balanceAfter =>
      obtain ⟨htx, hl, hw, hle⟩ := h
      obtain ⟨hl', hw'⟩ := hs.locks id hl
      exact ⟨htx, hl', hw'.trans hw, hle⟩
  | created row =>
      obtain ⟨htx, hl, hw, hle, hc, hkey⟩ := h
      obtain ⟨hl', hw'⟩ := hs.locks row.walletId hl
      obtain ⟨hc', hkey'⟩ := hs.claims row.idempotencyKey hc
      exact ⟨htx, hl', hw'.symm ▸ hw, hle, hc', hkey' hkey⟩

lemma spares_refl : Spares j σ σ := ⟨rfl, fun _ h => ⟨h, rfl⟩, fun _ => .rfl, fun _ h => ⟨h, id⟩⟩

lemma Spares.trans {σ'' : State} (h : Spares j σ σ') (h' : Spares j σ' σ'') : Spares j σ σ'' where
  txs := h'.txs.trans h.txs
  locks := by
    intro id hl
    obtain ⟨hl₁, hw₁⟩ := h.locks id hl
    obtain ⟨hl₂, hw₂⟩ := h'.locks id hl₁
    exact ⟨hl₂, hw₂.trans hw₁⟩
  missing := fun id => (h'.missing id).trans (h.missing id)
  claims := by
    intro key hc
    obtain ⟨hc₁, hk₁⟩ := h.claims key hc
    obtain ⟨hc₂, hk₂⟩ := h'.claims key hc₁
    exact ⟨hc₂, hk₂ ∘ hk₁⟩

lemma spares_close (hj : j ≠ i) : Spares j σ (σ.close i) where
  txs := if_neg hj
  locks := by
    intro id hl
    refine ⟨?_, rfl⟩
    simp [State.close, hl, hj]
  missing := fun _ => .rfl
  claims := by
    intro key hc
    refine ⟨?_, fun h => h⟩
    simp [State.close, hc, hj]

lemma spares_setTx (hj : j ≠ i) : Spares j σ (σ.setTx i tx) where
  txs := if_neg hj
  locks := fun _ hl => ⟨hl, rfl⟩
  missing := fun _ => .rfl
  claims := fun _ hc => ⟨hc, fun h => h⟩

lemma spares_lock {id : ℕ} (hj : j ≠ i) (hfree : ¬ (σ.locks id).any (· ≠ i)) : Spares j σ (σ.lock i id) where
  txs := rfl
  locks := by
    intro w hl
    refine ⟨?_, rfl⟩
    by_cases hw : w = id
    · subst hw
      simp [hl, hj] at hfree
    · simpa [State.lock, hw] using hl
  missing := fun _ => .rfl
  claims := fun _ hc => ⟨hc, fun h => h⟩

lemma spares_claim {key : String} (hj : j ≠ i) (hfree : ¬ (σ.claims key).any (· ≠ i)) :
    Spares j σ (σ.claim i key) where
  txs := rfl
  locks := fun _ hl => ⟨hl, rfl⟩
  missing := fun _ => .rfl
  claims := by
    intro k hc
    refine ⟨?_, fun h => h⟩
    by_cases hk : k = key
    · subst hk
      simp [hc, hj] at hfree
    · simpa [State.claim, hk] using hc

end Transactions

section Step

variable {σ σ' : State} {i j : ℕ} {tx : Tx} {m : Stage} {o : Oracle} {s : Stmt} {r : ledger.Reply s}

structure Proceeds (i : ℕ) (m : Stage) (σ σ' : State) : Prop where
  spares : ∀ j, j ≠ i → Spares j σ σ'
  matches_tx : ∀ tx, σ'.txs i = some tx → Matches σ' i tx m
  effect : Untouched σ σ' ∨ m = .posted ∧ ∃ row, Posts σ σ' row

lemma proceeds_refl (h : ∀ tx, σ.txs i = some tx → Matches σ i tx m) : Proceeds i m σ σ :=
  ⟨fun _ _ => spares_refl, h, .inl ⟨rfl, rfl⟩⟩

lemma proceeds_close : Proceeds i m σ (σ.close i) :=
  ⟨fun _ hj => spares_close hj, fun tx htx => by simp [State.close] at htx, .inl ⟨rfl, rfl⟩⟩

@[simp] lemma learn_error {e : Err} : m.learn s (.error e) = m := by
  cases m <;> cases s <;> rfl

@[simp] lemma learn_findUnique {key : String} {r : ledger.Reply (.findUnique key)} :
    m.learn (.findUnique key) r = m := by
  cases m <;> rfl

/-- What an open transaction has written is locked. -/
lemma Matches.owns (h : Matches σ i tx m) :
    (∀ id b, tx.wallets id = some b → σ.locks id = some i ∧ σ.wallets id ≠ none) ∧
      ∀ r ∈ tx.rows, σ.claims r.idempotencyKey = some i := by
  cases m with
  | idle | posted => exact h.elim
  | begun =>
      obtain rfl := h
      exact ⟨fun _ _ => nofun, nofun⟩
  | locked | read =>
      obtain ⟨rfl, -⟩ := h
      exact ⟨fun _ _ => nofun, nofun⟩
  | updated id balance balanceAfter =>
      obtain ⟨rfl, hl, hw, -⟩ := h
      refine ⟨fun w b hb => ?_, nofun⟩
      dsimp only at hb
      split_ifs at hb with hwid
      subst hwid
      exact ⟨hl, by simp [hw]⟩
  | created row =>
      obtain ⟨rfl, hl, ⟨balance, hw, -⟩, -, hc, -⟩ := h
      refine ⟨fun w b hb => ?_, fun r hr => ?_⟩
      · dsimp only at hb
        split_ifs at hb with hwid
        subst hwid
        exact ⟨hl, by simp [hw]⟩
      · obtain rfl := List.mem_singleton.1 hr
        exact hc

lemma spares_apply (h : Matches σ i tx m) (hj : j ≠ i) : Spares j σ (σ.apply tx) where
  txs := rfl
  locks := by
    intro id hl
    refine ⟨hl, ?_⟩
    cases hw : tx.wallets id with
    | none => simp [State.apply, hw]
    | some b =>
        have hi := (h.owns.1 id b hw).1
        rw [hl] at hi
        exact absurd (Option.some.inj hi) hj
  missing := by
    intro id
    cases hw : tx.wallets id with
    | none => simp [State.apply, hw]
    | some b => simp [State.apply, hw, (h.owns.1 id b hw).2]
  claims := by
    refine fun key hc => ⟨hc, fun hkey r hr hk => ?_⟩
    rcases List.mem_append.1 hr with hr | hr
    · have hi := h.owns.2 r hr
      rw [hk, hc] at hi
      exact hj (Option.some.inj hi)
    · exact hkey r hr hk

lemma proceeds_commit (h : Matches σ i tx m) (hd : m.Due .commit) :
    Proceeds i (m.learn .commit (.ok ())) σ ((σ.apply tx).close i) where
  spares j hj := (spares_apply h hj).trans (spares_close hj)
  matches_tx tx htx := by simp [State.close] at htx
  effect := by
    obtain ⟨-, hno⟩ := hd
    have hempty (htx : tx = {}) : Untouched σ ((σ.apply tx).close i) := by
      subst htx
      exact ⟨by simp [State.close, State.apply], rfl⟩
    cases m with
    | idle | posted => exact h.elim
    | begun => exact .inl (hempty h)
    | locked | read => exact .inl (hempty h.1)
    | updated id b b' => exact absurd rfl (hno id b b')
    | created row =>
        obtain ⟨rfl, -, hw, hle, -, hkey⟩ := h
        refine .inr ⟨rfl, row, rfl, hkey, hw, fun w => ?_, hle⟩
        by_cases hwid : w = row.walletId <;> simp [State.close, State.apply, hwid]

lemma proceeds_performIn (h : Matches σ i tx m) (htx : σ.txs i = some tx) (hd : m.Due s)
    (hs : performIn i σ tx s = some (r, σ')) : Proceeds i (m.learn s r) σ σ' := by
  have hsame {m : Stage} (h : Matches σ i tx m) : Proceeds i m σ σ := by
    refine proceeds_refl fun tx' htx' => ?_
    obtain rfl := Option.some.inj (htx.symm.trans htx')
    exact h
  cases s with
  | findUnique key =>
      obtain ⟨rfl, rfl⟩ := Prod.mk.inj (Option.some.inj hs)
      rw [learn_findUnique]
      exact hsame h
  | begin =>
      obtain ⟨rfl, rfl⟩ := Prod.mk.inj (Option.some.inj hs)
      rw [learn_error]
      exact hsame h
  | lockWallet id =>
      obtain rfl : m = .begun := hd
      obtain rfl : tx = {} := h
      simp only [performIn] at hs
      split_ifs at hs with hnone hout
      · obtain ⟨rfl, rfl⟩ := Prod.mk.inj (Option.some.inj hs)
        exact hsame ⟨rfl, fun hw => absurd hnone hw⟩
      · obtain ⟨rfl, rfl⟩ := Prod.mk.inj (Option.some.inj hs)
        refine ⟨fun j hj => spares_lock hj hout, fun tx' htx' => ?_, .inl ⟨rfl, rfl⟩⟩
        obtain rfl := Option.some.inj (htx.symm.trans htx')
        exact ⟨rfl, fun _ => if_pos rfl⟩
  | findWallet id =>
      obtain rfl : m = .locked id := hd
      obtain ⟨rfl, hl⟩ := h
      simp only [performIn, Option.none_or] at hs
      cases hw : σ.wallets id with
      | none =>
          rw [hw] at hs
          obtain ⟨rfl, rfl⟩ := Prod.mk.inj (Option.some.inj hs)
          rw [learn_error]
          exact hsame ⟨rfl, hl⟩
      | some b =>
          rw [hw] at hs
          obtain ⟨rfl, rfl⟩ := Prod.mk.inj (Option.some.inj hs)
          exact hsame ⟨rfl, hl (by simp [hw]), hw⟩
  | updateWallet id b' =>
      obtain ⟨hle, b, rfl⟩ := hd
      obtain ⟨rfl, hl, hw⟩ := h
      simp only [performIn, hw, reduceCtorEq, if_false] at hs
      split_ifs at hs with hout
      · obtain ⟨rfl, rfl⟩ := Prod.mk.inj (Option.some.inj hs)
        refine ⟨fun j hj => (spares_lock hj hout).trans (spares_setTx hj), fun tx' htx' => ?_, .inl ⟨rfl, rfl⟩⟩
        obtain rfl : _ = tx' := Option.some.inj ((if_pos rfl).symm.trans htx')
        exact ⟨rfl, if_pos rfl, hw, hle⟩
  | createRow row =>
      obtain ⟨b, rfl, hafter⟩ := hd
      obtain ⟨rfl, hl, hw, hle⟩ := h
      simp only [performIn, hw, reduceCtorEq, if_false] at hs
      split_ifs at hs with hdup hout
      · obtain ⟨rfl, rfl⟩ := Prod.mk.inj (Option.some.inj hs)
        rw [learn_error]
        exact hsame ⟨rfl, hl, hw, hle⟩
      · obtain ⟨rfl, rfl⟩ := Prod.mk.inj (Option.some.inj hs)
        refine ⟨fun j hj => (spares_claim hj hout).trans (spares_setTx hj), fun tx' htx' => ?_, .inl ⟨rfl, rfl⟩⟩
        obtain rfl : _ = tx' := Option.some.inj ((if_pos rfl).symm.trans htx')
        refine ⟨rfl, hl, ⟨b, hw, hafter⟩, hle, if_pos rfl, fun r' hr' hk => hdup ?_⟩
        exact List.find?_isSome.2 ⟨r', hr', by simpa using hk⟩
  | commit =>
      obtain ⟨rfl, rfl⟩ := Prod.mk.inj (Option.some.inj hs)
      exact proceeds_commit h hd
  | rollback =>
      obtain ⟨rfl, rfl⟩ := Prod.mk.inj (Option.some.inj hs)
      exact proceeds_close

lemma proceeds_exec (h : ∀ tx, σ.txs i = some tx → Matches σ i tx m) (hd : m.Due s)
    (hs : exec o i s σ = some (r, σ')) : Proceeds i (m.learn s r) σ σ' := by
  cases o with
  | ok =>
      have hp : perform i σ s = some (r, σ') := hs
      unfold perform at hp
      cases htx : σ.txs i with
      | some tx =>
          rw [htx] at hp
          exact proceeds_performIn (h tx htx) htx hd hp
      | none =>
          rw [htx] at hp
          cases s with
          | findUnique key =>
              obtain ⟨rfl, rfl⟩ := Prod.mk.inj (Option.some.inj hp)
              rw [learn_findUnique]
              exact proceeds_refl h
          | begin =>
              obtain ⟨rfl, rfl⟩ := Prod.mk.inj (Option.some.inj hp)
              obtain rfl : m = .idle := hd
              refine ⟨fun j hj => spares_setTx hj, fun tx htx => ?_, .inl ⟨rfl, rfl⟩⟩
              exact (Option.some.inj ((if_pos rfl).symm.trans htx)).symm
          | _ =>
              obtain ⟨rfl, rfl⟩ := Prod.mk.inj (Option.some.inj hp)
              rw [learn_error]
              exact proceeds_refl h
  | lost =>
      simp only [exec] at hs
      split_ifs at hs
      obtain ⟨rfl, rfl⟩ := Prod.mk.inj (Option.some.inj hs)
      rw [learn_error]
      exact proceeds_refl h
  | dropped =>
      obtain ⟨-, rfl⟩ := Prod.mk.inj (Option.some.inj hs)
      exact proceeds_close

end Step

section Runs

variable {start : ℕ → Option ℤ} {σ : State} {w : LedgerWorld} {c : LedgerConfig} {i : ℕ}

abbrev stage (i : ℕ) (log : List LedgerEntry) : Stage := foldBy Stage.learn Stage.idle i log

/-- Every step posts a row or moves no money, and no two steps post a row under one key. -/
structure AppliedOnce (log : List LedgerEntry) : Prop where
  posts : ∀ x ∈ log, Untouched x.before x.after ∨ ∃ row, Posts x.before x.after row
  once : log.Pairwise fun x y => ∀ r r', Posts x.before x.after r → Posts y.before y.after r' →
    r.idempotencyKey ≠ r'.idempotencyKey

structure Sound (start : ℕ → Option ℤ) (w : LedgerWorld) : Prop where
  books : Balanced start w.state
  txs : ∀ i tx, w.state.txs i = some tx → Matches w.state i tx (stage i w.log)
  applied : AppliedOnce w.log
  kept : ∀ x ∈ w.log, ∀ row, Posts x.before x.after row → row ∈ w.state.journal
  posted : ∀ x ∈ w.log, ¬ Untouched x.before x.after → stage x.call w.log = .posted

lemma not_posts {σ σ' : State} {row : Row} (hu : Untouched σ σ') (hp : Posts σ σ' row) : False := by
  have hlen := congrArg List.length (hu.2.symm.trans hp.journal)
  simp at hlen

lemma Sound.untouched {x : LedgerEntry} (h : Sound start w) (hx : x.before = w.state)
    (hu : Untouched x.before x.after) (htx : ∀ i tx, x.after.txs i = some tx →
      Matches x.after i tx (stage i (x :: w.log)))
    (hstage : ∀ j, stage j w.log = .posted → stage j (x :: w.log) = .posted) : Sound start ⟨x.after, x :: w.log⟩ where
  books := (hx ▸ h.books : Balanced start x.before).untouched hu
  txs := htx
  applied := by
    refine ⟨fun y hy => ?_, List.pairwise_cons.2 ⟨fun y _ r _ hr => (not_posts hu hr).elim, h.applied.once⟩⟩
    rcases List.mem_cons.1 hy with rfl | hy
    · exact .inl hu
    · exact h.applied.posts y hy
  kept := by
    intro y hy row hp
    rcases List.mem_cons.1 hy with rfl | hy
    · exact (not_posts hu hp).elim
    · change row ∈ x.after.journal
      rw [hu.2, hx]
      exact h.kept y hy row hp
  posted := by
    intro y hy hno
    rcases List.mem_cons.1 hy with rfl | hy
    · exact absurd hu hno
    · exact hstage _ (h.posted y hy hno)

lemma Sound.post {x : LedgerEntry} {row : Row} (h : Sound start w) (hx : x.before = w.state)
    (hp : Posts x.before x.after row) (htx : ∀ i tx, x.after.txs i = some tx →
      Matches x.after i tx (stage i (x :: w.log)))
    (hstage : ∀ j, stage j w.log = .posted → stage j (x :: w.log) = .posted)
    (hposted : stage x.call (x :: w.log) = .posted) : Sound start ⟨x.after, x :: w.log⟩ where
  books := (hx ▸ h.books : Balanced start x.before).post hp
  txs := htx
  applied := by
    refine ⟨fun y hy => ?_, List.pairwise_cons.2 ⟨fun y hy r r' hr hr' hk => ?_, h.applied.once⟩⟩
    · rcases List.mem_cons.1 hy with rfl | hy
      · exact .inr ⟨row, hp⟩
      · exact h.applied.posts y hy
    · exact hr.key r' (hx ▸ h.kept y hy r' hr') hk.symm
  kept := by
    intro y hy r hr
    rcases List.mem_cons.1 hy with rfl | hy
    · change r ∈ y.after.journal
      rw [hr.journal]
      exact List.mem_cons_self
    · change r ∈ x.after.journal
      rw [hp.journal, hx]
      exact List.mem_cons_of_mem _ (h.kept y hy r hr)
  posted := by
    intro y hy hno
    rcases List.mem_cons.1 hy with rfl | hy
    · exact hposted
    · exact hstage _ (h.posted y hy hno)

lemma stage_answered {j : ℕ} {s : Stmt} {r : ledger.Reply s} {a : State} (h : stage j w.log = .posted) :
    stage j (.answered i s r w.state a :: w.log) = .posted := by
  by_cases hij : i = j
  · subst hij
    have hm : foldBy Stage.learn Stage.idle i w.log = .posted := h
    rw [stage, foldBy_self, hm]
    rfl
  · rwa [stage, foldBy_answered hij]

lemma Sound.answer {o : Oracle} {s : Stmt} {r : ledger.Reply s} {a : State} (h : Sound start w)
    (hd : (stage i w.log).Due s) (hs : exec o i s w.state = some (r, a)) : Sound start (w.answer i s r a) := by
  have hstep := proceeds_exec (h.txs i) hd hs
  have htx (j : ℕ) (tx : Tx) (hj : a.txs j = some tx) :
      Matches a j tx (stage j (.answered i s r w.state a :: w.log)) := by
    by_cases hij : i = j
    · subst hij
      rw [stage, foldBy_self]
      exact hstep.matches_tx tx hj
    · have hspared := hstep.spares j (Ne.symm hij)
      rw [stage, foldBy_answered hij]
      exact (h.txs j tx (hspared.txs.symm.trans hj)).spared hspared
  rcases hstep.effect with hu | ⟨hposted, row, hp⟩
  · exact h.untouched (x := .answered i s r w.state a) rfl hu htx fun j => stage_answered
  · refine h.post (x := .answered i s r w.state a) rfl hp htx (fun j => stage_answered) ?_
    change stage i (.answered i s r w.state a :: w.log) = .posted
    rw [stage, foldBy_self]
    exact hposted

lemma Sound.move {e : Call} (h : Sound start w) : Sound start (w.move i e w.state) :=
  h.untouched (x := .moved i e w.state w.state) rfl ⟨rfl, rfl⟩ h.txs fun _ => id

lemma Sound.kill (h : Sound start w) : Sound start (w.kill i (w.state.close i)) := by
  refine h.untouched (x := .killed i w.state (w.state.close i)) rfl ⟨rfl, rfl⟩ (fun j tx hj => ?_) fun _ => id
  by_cases hij : j = i
  · subst hij
    simp [State.close, Entry.after] at hj
  · have hspared : Spares j w.state (w.state.close i) := spares_close hij
    exact (h.txs j tx (hspared.txs.symm.trans hj)).spared hspared

lemma sound_initial (hσ : Balanced start σ) (htx : ∀ i, σ.txs i = none) : Sound start (⟨σ, []⟩ : LedgerWorld) where
  books := hσ
  txs := by
    intro i tx hi
    change σ.txs i = some tx at hi
    rw [htx i] at hi
    cases hi
  applied := ⟨by simp, .nil⟩
  kept := by simp
  posted := by simp

/-- Where the books are balanced and no transaction is open, they stay balanced over every run of any calls, no
key is applied twice, and a call that throws has left the wallets and the rows alone. -/
theorem ledger_integrity (hσ : Balanced start σ) (htx : ∀ i, σ.txs i = none)
    (h : Rule.free.Reaches system (Config.initial σ) c) :
    Balanced start c.world.state ∧ AppliedOnce c.world.log ∧
      ∀ i e, c.threads[i]? = some (.live (.raise e)) →
        ∀ x ∈ c.world.log, x.call = i → Untouched x.before x.after := by
  have hgood := good_of_discipline (M := system) (m := Stage.idle) (φ := fun _ => Stage.Due) (Q := fun _ => Ends)
    (R := Rule.free) (fun n e w a p _ he => by
      obtain ⟨-, hp⟩ := Prod.mk.inj (Option.some.inj he)
      obtain rfl := Option.some.inj hp
      exact heeds_prog e)
    (fun i o s w r a (hw : Sound start w) _ hd he => hw.answer hd he)
    (fun n e w a p hw _ he => by
      obtain ⟨rfl, -⟩ := Prod.mk.inj (Option.some.inj he)
      exact hw.move)
    (fun i w hw _ => hw.kill)
    (sound_initial hσ htx) h
  have hinv : Sound start c.world := hgood.inv
  refine ⟨hinv.books, hinv.applied, fun i e hi x hx hcall => ?_⟩
  by_contra hno
  have hposted := hinv.posted x hx hno
  rw [hcall] at hposted
  exact hgood.raised hi _ rfl e rfl hposted

def opening : State where
  wallets := fun w => if w = 0 then some 100 else if w = 1 then some 50 else none
  journal := []
  locks := fun _ => none
  claims := fun _ => none
  txs := fun _ => none

/-- Two calls take one key to two wallets at once: the second waits for the first, and is told of its row. -/
theorem one_key_on_two_wallets : ∃ c : LedgerConfig, Balanced opening.wallets c.world.state ∧
    c.world.state.wallets 0 = some 70 ∧ c.world.state.wallets 1 = some 50 ∧
    c.threads[0]? = c.threads[1]? := by
  have hrun : system.run (Config.initial opening)
      (.env (.debit 0 30 .betDebit "key" none) :: .env (.credit 1 20 .deposit "key" none) ::
        (List.replicate 6 [.act 0 .ok, .act 1 .ok]).flatten ++ [.act 0 .ok, .act 0 .ok] ++
        List.replicate 3 (.act 1 .ok)) = some _ := rfl
  have hstart : Balanced opening.wallets opening := balanced_of_empty rfl fun w b hb => by
    simp only [opening] at hb
    split_ifs at hb <;> obtain rfl := Option.some.inj hb <;> decide
  exact ⟨_, (ledger_integrity hstart (fun _ => rfl) (Rule.reaches_of_run Rule.obeys_free hrun)).1, rfl, rfl, rfl⟩

end Runs

end VaultRun.Safety.LedgerIntegrity
