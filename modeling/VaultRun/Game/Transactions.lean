import VaultRun.Game.Reversals

/-!
Every rollback is that of the transaction that its outbox row stands for: the payout of the bet for a reclaim,
and otherwise the debit of the slot that the bet has always had.
-/

namespace VaultRun.Game.Transactions

open VaultRun.Concurrency VaultRun.Data Program WalletRollbackService SeamlessOperatorWallet BetsService
  GameEngineService

/-- Bets are given out in order, and keep their slots. -/
structure KeepsSlots (σ σ' : State) : Prop where
  next : σ.bets.next ≤ σ'.bets.next
  slot : ∀ b y, b < σ.bets.next → σ'.bets.row b = some y → ∃ x, σ.bets.row b = some x ∧ y.slot = x.slot

def HadSlot (b : ℕ) (slot : Slot) (w : GameWorld) : Prop :=
  ∃ y : Bet, y.slot = slot ∧ (w.state.bets.row b = some y ∨ ∃ x ∈ w.log, x.before.bets.row b = some y)

/-- The transaction that a row of the outbox stands for: where the bet was deleted before the start, it is the
one that was noted down then. -/
def Own (σ : State) (ref : RollbackRef) (k : Key) (w : GameWorld) : Prop :=
  if ref.reason = .voidReclaim then k = .payout ref.betId
  else (∃ row, σ.rollbacks.row ref = some row ∧ row.transactionId = k) ∨
    ∃ slot, k = .debit slot ∧ HadSlot ref.betId slot w

def EmitsOwn (σ : State) (x : GameEntry) (earlier : List GameEntry) : Prop :=
  ∀ i op k b, x.Issues i (Stmt.operatorRollback op k b) → ∃ ref, refOf i earlier = some ref ∧
    ref.operatorId = op ∧ ref.betId = b ∧ Own σ ref k ⟨x.before, earlier⟩

/-- The rows carry their own transactions: the payout of the bet for a reclaim, and otherwise the debit of
the slot of the bet, as long as it is there. -/
def OwnRows (σ : State) : Prop := ∀ ref row, σ.rollbacks.row ref = some row → ref.betId < σ.bets.next ∧
  if ref.reason = .voidReclaim then row.transactionId = .payout ref.betId
  else ∀ y, σ.bets.row ref.betId = some y → row.transactionId = .debit y.slot

structure OwnInv (σ : State) (w : GameWorld) : Prop where
  known : ∀ b slot, HadSlot b slot w → b < w.state.bets.next
  agree : ∀ b slot slot', HadSlot b slot w → HadSlot b slot' w → slot = slot'
  noted : ∀ ref row, σ.rollbacks.row ref = some row → ref.betId < w.state.bets.next ∧
    (ref.reason ≠ .voidReclaim → ∀ slot, HadSlot ref.betId slot w → row.transactionId = .debit slot)
  rows : ∀ ref row, w.state.rollbacks.row ref = some row → Own σ ref row.transactionId w
  emitted : Throughout (EmitsOwn σ) w.log

structure AboutOwn (σ : State) (i : ℕ) (s : Stmt) (w : GameWorld) : Prop where
  emits : ∀ op k b, s = .operatorRollback op k b → ∃ ref, refOf i w.log = some ref ∧
    ref.operatorId = op ∧ ref.betId = b ∧ Own σ ref k w
  inserts : ∀ ref row, s = .createRollback ref row → Own σ ref row.transactionId w

def ownTransactions (P : Params) (σ : State) : Contract (system P) where
  rule := .free
  inv := OwnInv σ
  stmts _ := True
  pre := AboutOwn σ
  ended _ _ _ := True

variable {P : Params} {i b : ℕ} {w w' : GameWorld} {s : Stmt} {r : game.Reply s} {o : Oracle}
  {σ σ₁ σ₂ : State} {ref : RollbackRef} {k k' : Key} {slot slot' : Slot} {x : GameEntry}
  {later earlier : List GameEntry} {J : GameWorld → Prop}

section Slots

lemma KeepsSlots.of_same (h : SameTables σ₁ σ₂) : KeepsSlots σ₁ σ₂ := by
  refine ⟨by rw [h.bets], fun b y _ hy => ?_⟩
  rw [h.bets] at hy
  exact ⟨y, hy, rfl⟩

lemma exec_keepsSlots (h : exec P o i s σ₁ = some (r, σ₂)) : KeepsSlots σ₁ σ₂ := by
  refine ⟨exec_next h, fun b y hb hy => ?_⟩
  rcases exec_betChange h b with hk | ⟨rfl, -, -⟩ | ⟨hold, -, hrow⟩ | ⟨hold, hrow⟩ | hdel
  · exact ⟨y, hk ▸ hy, rfl⟩
  · exact absurd hb (lt_irrefl _)
  · obtain rfl := Option.some.inj (hrow.symm.trans hy)
    exact ⟨_, hold, rfl⟩
  · obtain rfl := Option.some.inj (hrow.symm.trans hy)
    exact ⟨_, hold, rfl⟩
  · rw [hdel] at hy
    cases hy

lemma HadSlot.now {y : Bet} (h : w.state.bets.row b = some y) : HadSlot b y.slot w := ⟨y, rfl, .inl h⟩

lemma HadSlot.of_mem {y : Bet} (hx : x ∈ w.log) (h : x.before.bets.row b = some y) : HadSlot b y.slot w :=
  ⟨y, rfl, .inr ⟨x, hx, h⟩⟩

lemma HadSlot.next (h : HadSlot b slot w) (hlog : w'.log = x :: w.log) (hbefore : x.before = w.state) :
    HadSlot b slot w' := by
  obtain ⟨y, hslot, hnow | ⟨z, hz, hthen⟩⟩ := h
  · exact ⟨y, hslot, .inr ⟨x, by simp [hlog], hbefore ▸ hnow⟩⟩
  · exact ⟨y, hslot, .inr ⟨z, by simp [hlog, hz], hthen⟩⟩

lemma HadSlot.of_next (h : HadSlot b slot w') (hkeeps : KeepsSlots w.state w'.state)
    (hlog : w'.log = x :: w.log) (hbefore : x.before = w.state) :
    HadSlot b slot w ∨ ∃ y, w'.state.bets.row b = some y ∧ y.slot = slot ∧ w.state.bets.next ≤ b := by
  obtain ⟨y, rfl, hnow | ⟨z, hz, hthen⟩⟩ := h
  · rcases lt_or_ge b w.state.bets.next with hb | hb
    · obtain ⟨y', hy', heq⟩ := hkeeps.slot b y hb hnow
      exact .inl ⟨y', heq.symm, .inl hy'⟩
    · exact .inr ⟨y, hnow, rfl, hb⟩
  · rw [hlog] at hz
    rcases List.mem_cons.1 hz with rfl | hz
    · exact .inl (.now (hbefore ▸ hthen))
    · exact .inl (.of_mem hz hthen)

lemma HadSlot.of_split (h : HadSlot b slot ⟨x.before, earlier⟩) (hlog : w.log = later ++ x :: earlier) :
    HadSlot b slot w := by
  obtain ⟨y, rfl, hnow | ⟨z, hz, hthen⟩⟩ := h
  · exact .of_mem (by simp [hlog]) hnow
  · exact .of_mem (by simp [hlog, show z ∈ earlier from hz]) hthen

lemma Own.mono (h : Own σ ref k w) (hw : ∀ slot, HadSlot ref.betId slot w → HadSlot ref.betId slot w') :
    Own σ ref k w' := by
  unfold Own at h ⊢
  split
  · rwa [if_pos ‹_›] at h
  · rw [if_neg ‹_›] at h
    exact h.imp_right fun ⟨slot, hk, hslot⟩ => ⟨slot, hk, hw slot hslot⟩

lemma own_of_hadSlot (h : HadSlot ref.betId slot w) (hr : ref.reason ≠ .voidReclaim) :
    Own σ ref (.debit slot) w := by
  rw [Own, if_neg hr]
  exact .inr ⟨slot, rfl, h⟩

lemma Own.unique (hi : OwnInv σ w) (h : Own σ ref k w) (h' : Own σ ref k' w) : k = k' := by
  unfold Own at h h'
  split at h
  · rw [if_pos ‹_›] at h'
    exact h.trans h'.symm
  · rename_i hreason
    rw [if_neg hreason] at h'
    have hnoted {row : WalletRollback} {slot : Slot} (hrow : σ.rollbacks.row ref = some row)
        (hslot : HadSlot ref.betId slot w) : row.transactionId = .debit slot :=
      (hi.noted ref row hrow).2 hreason slot hslot
    rcases h with ⟨row, hrow, rfl⟩ | ⟨slot, rfl, hslot⟩ <;>
      rcases h' with ⟨row', hrow', rfl⟩ | ⟨slot', rfl, hslot'⟩
    · rw [Option.some.inj (hrow.symm.trans hrow')]
    · exact hnoted hrow hslot'
    · exact (hnoted hrow' hslot).symm
    · rw [hi.agree _ _ _ hslot hslot']

end Slots

section Step

lemma moves_keepsSlots (hm : (ownTransactions P σ).Moves w w') :
    KeepsSlots w.state w'.state ∧ ∃ x, w'.log = x :: w.log ∧ x.before = w.state ∧ ∀ j s, ¬ x.Issues j s := by
  refine ⟨.of_same (moves_tables hm), ?_⟩
  rcases hm with ⟨n, e, a, p, -, -, rfl⟩ | ⟨j, -, rfl⟩
  · exact ⟨_, rfl, rfl, by simp [Entry.Issues]⟩
  · exact ⟨_, rfl, rfl, by simp [Entry.Issues]⟩

lemma answers_keepsSlots (ha : (ownTransactions P σ).Answers i s w r w') :
    KeepsSlots w.state w'.state ∧ ∃ x, w'.log = x :: w.log ∧ x.before = w.state := by
  obtain ⟨o, a, -, hexec, rfl⟩ := ha
  exact ⟨exec_keepsSlots hexec, _, rfl, rfl⟩

lemma ownInv_next (hi : OwnInv σ w) (hkeeps : KeepsSlots w.state w'.state) (hlog : w'.log = x :: w.log)
    (hbefore : x.before = w.state)
    (hrows : ∀ ref row, w'.state.rollbacks.row ref = some row → Own σ ref row.transactionId w')
    (hx : EmitsOwn σ x w.log) : OwnInv σ w' where
  known b slot h := by
    rcases h.of_next hkeeps hlog hbefore with h | ⟨y, hy, -, -⟩
    · exact (hi.known b slot h).trans_le hkeeps.next
    · exact w'.state.bets.fresh b y hy
  agree b slot slot' h h' := by
    rcases h.of_next hkeeps hlog hbefore with h | ⟨y, hy, rfl, hnew⟩ <;>
      rcases h'.of_next hkeeps hlog hbefore with h' | ⟨y', hy', rfl, hnew'⟩
    · exact hi.agree b slot slot' h h'
    · exact absurd (hi.known b slot h) (not_lt.2 hnew')
    · exact absurd (hi.known b slot' h') (not_lt.2 hnew)
    · rw [Option.some.inj (hy.symm.trans hy')]
  noted ref row hrow := by
    obtain ⟨hlt, hnoted⟩ := hi.noted ref row hrow
    refine ⟨hlt.trans_le hkeeps.next, fun hreason slot h => ?_⟩
    rcases h.of_next hkeeps hlog hbefore with h | ⟨y, -, -, hnew⟩
    · exact hnoted hreason slot h
    · exact absurd hlt (not_lt.2 hnew)
  rows := hrows
  emitted := by
    rw [hlog]
    exact ⟨hx, hi.emitted⟩

lemma ownTransactions_step (hi : OwnInv σ w) (hp : AboutOwn σ i s w)
    (ha : (ownTransactions P σ).Answers i s w r w') : OwnInv σ w' := by
  obtain ⟨hkeeps, x, hlog, hbefore⟩ := answers_keepsSlots ha
  have hmono {ref : RollbackRef} {k : Key} (h : Own σ ref k w) : Own σ ref k w' :=
    h.mono fun _ h => h.next hlog hbefore
  obtain ⟨o, a, -, hexec, rfl⟩ := ha
  obtain rfl := (List.cons.inj hlog).1
  refine ownInv_next hi hkeeps hlog hbefore (fun ref row hrow => ?_) ?_
  · rcases exec_rollback_row hexec hrow with ⟨old, hold, heq⟩ | rfl
    · exact heq ▸ hmono (hi.rows ref old hold)
    · exact hmono (hp.inserts ref row rfl)
  · rintro j op k b ⟨r', b', a', h⟩
    obtain ⟨rfl, rfl, -⟩ := Entry.answered.inj h
    exact hp.emits op k b rfl

lemma ownTransactions_move (hi : OwnInv σ w) (hm : (ownTransactions P σ).Moves w w') : OwnInv σ w' := by
  obtain ⟨hkeeps, x, hlog, hbefore, hquiet⟩ := moves_keepsSlots hm
  refine ownInv_next hi hkeeps hlog hbefore (fun ref row hrow => ?_) fun i op k b h => absurd h (hquiet _ _)
  rw [(moves_tables hm).rollbacks] at hrow
  exact (hi.rows ref row hrow).mono fun _ h => h.next hlog hbefore

lemma lasting_hadSlot : (ownTransactions P σ).Lasting (HadSlot b slot) where
  moves hm hw := by
    obtain ⟨-, x, hlog, hbefore, -⟩ := moves_keepsSlots hm
    exact hw.next hlog hbefore
  answers _ ha hw := by
    obtain ⟨-, x, hlog, hbefore⟩ := answers_keepsSlots ha
    exact hw.next hlog hbefore

lemma lasting_own : (ownTransactions P σ).Lasting (Own σ ref k) where
  moves hm hw := by
    obtain ⟨-, x, hlog, hbefore, -⟩ := moves_keepsSlots hm
    exact hw.mono fun _ h => h.next hlog hbefore
  answers _ ha hw := by
    obtain ⟨-, x, hlog, hbefore⟩ := answers_keepsSlots ha
    exact hw.mono fun _ h => h.next hlog hbefore

end Step

section Calls

def Ours (ref : RollbackRef) (k : Key) (s : Stmt) : Prop :=
  (∀ ref', s.outboxRef = some ref' → ref' = ref) ∧
    (∀ op k' b, s = .operatorRollback op k' b → op = ref.operatorId ∧ k' = k ∧ b = ref.betId) ∧
    ∀ ref' row, s = .createRollback ref' row → row.transactionId = k

attribute [local simp] Program.await Option.forall except_forall Ours in
lemma rollbackOnce_ours (s : OperatorSession) (k : Key) (b : ℕ) (reason : Intent) (propagate : Bool)
    (amount : Option ℤ) :
    (rollbackOnce s k b reason propagate amount).Uses (Ours ⟨s.operatorId, b, reason⟩ k) := by
  simp [rollbackOnce, claim, bumpAttempts, acquireLease, confirm, recordEmitFailure]

lemma keeps_ours {α : Type} {p : Program game α} (hp : p.Uses (Ours ref k))
    (hJ : (ownTransactions P σ).Lasting J) (hown : ∀ w, J w → Own σ ref k w) :
    Keeps (ownTransactions P σ) i (fun w => refOf i w.log = some ref ∧ J w) p := by
  refine keeps_of_uses hp ((stable_refOf _).and hJ.stable) fun s w hs _ hw => ⟨⟨fun op k' b h => ?_, ?_⟩, ?_⟩
  · obtain ⟨rfl, rfl, rfl⟩ := hs.2.1 op k' b h
    exact ⟨ref, hw.1, rfl, rfl, hown w hw.2⟩
  · rintro ref' row rfl
    obtain rfl := hs.1 ref' rfl
    rw [hs.2.2 _ row rfl]
    exact hown w hw.2
  · refine fun r w' ha _ => ⟨?_, hJ.answers trivial ha hw.2⟩
    rw [refOf_answers ha, hw.1]
    cases href : s.outboxRef with
    | none => rfl
    | some ref' => rw [hs.1 ref' href]; rfl

lemma aboutOwn_off (he : s.emits = false) (hc : ∀ ref row, s ≠ .createRollback ref row) :
    AboutOwn σ i s w := by
  refine ⟨fun op k b h => ?_, fun ref row h => absurd h (hc ref row)⟩
  subst h
  cases he

lemma keeps_rollbackOnce (s : OperatorSession) (k : Key) (b : ℕ) (reason : Intent) (propagate : Bool)
    (amount : Option ℤ) (hJ : (ownTransactions P σ).Lasting J)
    (hown : ∀ w, J w → Own σ ⟨s.operatorId, b, reason⟩ k w) :
    Keeps (ownTransactions P σ) i J (rollbackOnce s k b reason propagate amount) := by
  obtain ⟨-, hrest⟩ := rollbackOnce_ours s k b reason propagate amount
  intro w _ hw w₁ h₁ _
  refine ⟨aboutOwn_off rfl (by simp), fun r w₂ ha hi₂ => ?_⟩
  have hw₂ : J w₂ := hJ.answers trivial ha (hJ.stable.interferes h₁ hw)
  exact (keeps_ours (hrest r) hJ hown w₂ hi₂ ⟨refOf_answers ha, hw₂⟩).mono fun _ _ _ h => h.2

lemma keeps_off {α : Type} {p : Program game α} (hJ : (ownTransactions P σ).Lasting J)
    (hp : p.Uses fun s : Stmt => s.offOutbox) : Keeps (ownTransactions P σ) i J p := by
  refine keeps_of_lasting hJ (hp.mono fun _ hs => ⟨trivial, hs⟩) fun s w hs _ _ => ?_
  exact aboutOwn_off (emits_of_off hs) (by rintro ref row rfl; simp at hs)

lemma keeps_plain {α : Type} {p : Program game α} (hJ : (ownTransactions P σ).Lasting J)
    (hp : p.Uses fun s : Stmt => s.plain) : Keeps (ownTransactions P σ) i J p :=
  keeps_off hJ (hp.mono fun _ => Stmt.offOutbox_of_plain)

lemma keeps_quiet {α : Type} {p : Program game α} (hJ : (ownTransactions P σ).Lasting J)
    (hp : p.Uses fun s : Stmt => s.quiet) : Keeps (ownTransactions P σ) i J p :=
  quiet_off (keeps_off hJ) hp

lemma rollsBack_of_slot (hJ : (ownTransactions P σ).Lasting J) (hslot : ∀ w, J w → HadSlot b slot w) :
    RollsBack (fun _ p => Keeps (ownTransactions P σ) i J p) (.debit slot) b := by
  intro s reason propagate amount hreason
  refine keeps_rollbackOnce s _ b reason propagate amount hJ fun w hw => own_of_hadSlot (hslot w hw) ?_
  rintro rfl
  cases hreason

lemma sat_acquireLease_ref (row : WalletRollback) (hJ : (ownTransactions P σ).Lasting J) (hw : J w) :
    Sat (ownTransactions P σ) i (fun r w => J w ∧ (r = .ok true → refOf i w.log = some ref))
      (acquireLease ref row) w := by
  refine sat_await_bind fun w₁ h₁ _ => ⟨aboutOwn_off rfl (by simp), fun r w₂ ha _ => ?_⟩
  have hw₂ := hJ.answers trivial ha (hJ.stable.interferes h₁ hw)
  rcases r with e | now
  · exact fun w₃ h₃ _ => ⟨hJ.stable.interferes h₃ hw₂, by simp⟩
  refine sat_await_bind fun w₃ h₃ _ => ⟨aboutOwn_off rfl (by simp), fun r w₄ ha _ => ?_⟩
  have hw₄ := hJ.answers trivial ha (hJ.stable.interferes h₃ hw₂)
  have href : refOf i w₄.log = some ref := refOf_answers ha
  rcases r with e | count
  · exact fun w₅ h₅ _ => ⟨hJ.stable.interferes h₅ hw₄, by simp⟩
  · exact fun w₅ h₅ _ => ⟨hJ.stable.interferes h₅ hw₄, fun _ => (stable_refOf _).interferes h₅ href⟩

attribute [local simp] Program.await Option.forall except_forall Ours in
lemma keeps_drainOne {x : RollbackRef × WalletRollback} (hJ : (ownTransactions P σ).Lasting J)
    (hown : ∀ w, J w → Own σ x.1 x.2.transactionId w) (n : ℕ) :
    Keeps (ownTransactions P σ) i J (drainOne n x) := by
  intro w _ hw
  have hacquire : Sat (ownTransactions P σ) i (fun r w => J w ∧ (r = .ok true → refOf i w.log = some x.1))
      ((acquireLease x.1 x.2).catching fun _ => pure false) w := by
    refine sat_catching ((sat_acquireLease_ref x.2 hJ hw).mono ?_)
    rintro (e | taken) w₁ - h₁
    · exact fun w₂ h₂ _ => ⟨hJ.stable.interferes h₂ h₁.1, by simp⟩
    · exact h₁
  refine sat_bind (hacquire.mono ?_)
  rintro (e | taken) w₁ hi₁ ⟨hw₁, href⟩
  · exact hw₁
  cases taken with
  | false => exact keeps_ret hJ.stable n w₁ hi₁ hw₁
  | true =>
      refine (keeps_ours ?_ hJ hown w₁ hi₁ ⟨href rfl, hw₁⟩).mono fun _ _ _ h => h.2
      simp [confirm]

end Calls

section Rows

def SlotsOf (rows : List (ℕ × Bet)) (w : GameWorld) : Prop := ∀ x ∈ rows, HadSlot x.1 x.2.slot w

variable {rows : List (ℕ × Bet)}

lemma lasting_slots : (ownTransactions P σ).Lasting (SlotsOf rows) := .all fun _ => lasting_hadSlot

lemma keeps_found {β : Type} {wh : BetWhere} {take : Option ℕ} {f : List (ℕ × Bet) → Program game β}
    (h : ∀ rows, Keeps (ownTransactions P σ) i (SlotsOf rows) (f rows)) :
    Keeps (ownTransactions P σ) i (fun _ => True) (await (.findBets wh take) >>= f) := by
  refine fun w _ _ => sat_await_bind fun w₁ _ hi₁ => ⟨aboutOwn_off rfl (by simp), fun r w₂ ha hi₂ => ?_⟩
  rcases r with e | rows
  · exact fun _ _ _ => trivial
  · obtain ⟨hsame, hrows⟩ := answers_findBets ha
    refine (h rows w₂ hi₂ fun x hx => .now ?_).mono fun _ _ _ _ => trivial
    rw [hsame]
    exact (hrows x.1 x.2 hx).1

lemma keeps_over {β : Type} {f : β → ℕ × Bet → Program game β} (acc : β)
    (h : ∀ x acc, (∀ w, SlotsOf rows w → HadSlot x.1 x.2.slot w) →
      Keeps (ownTransactions P σ) i (SlotsOf rows) (f acc x)) :
    Keeps (ownTransactions P σ) i (SlotsOf rows) (Program.loop f acc rows) :=
  keeps_loop lasting_slots.stable acc fun x hx acc => h x acc fun _ hw => hw x hx

lemma keeps_finish (hJ : (ownTransactions P σ).Lasting J) (b : ℕ) :
    Keeps (ownTransactions P σ) i J (await (.finishVoid b)) :=
  keeps_of_lasting (φ := fun s => s = .finishVoid b) hJ (await_uses ⟨trivial, rfl⟩) fun s w hs _ _ => by
    subst hs
    exact aboutOwn_off rfl (by simp)

lemma keeps_performVoidReversals {bet : Bet} (hJ : (ownTransactions P σ).Lasting J)
    (hslot : ∀ w, J w → HadSlot b bet.slot w) :
    Keeps (ownTransactions P σ) i J (BetsService.performVoidReversals P b bet) := by
  refine performVoidReversals_built (keeps_compositional hJ.stable) (keeps_quiet hJ) b bet
    (fun s amount => ?_) fun s amount => ?_
  · exact keeps_rollbackOnce s _ b _ true amount hJ fun w _ => by rw [Own, if_pos rfl]
  · exact keeps_rollbackOnce s _ b _ true amount hJ fun w hw => own_of_hadSlot (hslot w hw) (by simp)

end Rows

section Service

lemma lasting_true : (ownTransactions P σ).Lasting fun _ => True := ⟨fun _ _ => trivial, fun _ _ _ => trivial⟩

lemma sat_reserve (a : PlaceBet) (slot : Slot) (wl : ℕ × Wallet) (amt : ℤ) (hi : OwnInv σ w) :
    Sat (ownTransactions P σ) i (fun r w => ∀ b, r = .ok b → HadSlot b slot w)
      (BetsService.reserve P a slot wl amt) w := by
  have hcreate (d : NewBet) (w : GameWorld) : Sat (ownTransactions P σ) i
      (fun r w => ∀ b, r = .ok b → HadSlot b d.slot w) (await (.createBet d)) w := by
    refine sat_await fun w₁ _ _ => ⟨aboutOwn_off rfl (by simp), ?_⟩
    rintro r w₂ ha hi₂ w₃ h₃ _ b rfl
    obtain ⟨o, a, -, hexec, rfl⟩ := ha
    exact lasting_hadSlot.stable.interferes h₃ ⟨_, rfl, .inl (exec_createBet hexec).2.1⟩
  have hcaps (bets : List (ℕ × Bet)) :
      (BetsService.sessionCaps a wl.1 amt bets).Uses fun s : Stmt => s.quiet := by
    cases hr : BetsService.rgOf a <;>
      simp [BetsService.sessionCaps, hr, BetsService.sessionAccounting, Program.await]
  have hquiet {β γ : Type} {p : Program game β} {f : β → Program game γ} {T : Except Err γ → GameWorld → Prop}
      {w : GameWorld} (hp : p.Uses fun s : Stmt => s.quiet) (hi : OwnInv σ w)
      (herr : ∀ e w, T (.error e) w) (hf : ∀ a w, OwnInv σ w → Sat (ownTransactions P σ) i T (f a) w) :
      Sat (ownTransactions P σ) i T (p >>= f) w := by
    refine sat_bind ((keeps_quiet lasting_true hp w hi trivial).mono ?_)
    rintro (e | a) w₁ hi₁ -
    · exact herr e w₁
    · exact hf a w₁ hi₁
  refine hquiet (await_quiet rfl) hi (by simp) fun _ w₁ hi₁ => sat_catching ?_
  refine Sat.mono (Q := fun r w => ∀ b, r = .ok b → HadSlot b slot w) ?_ ?_
  · refine hquiet (await_quiet rfl) hi₁ (by simp) fun bets w₂ hi₂ => ?_
    dsimp only
    split
    · exact fun _ _ _ _ h => by cases h
    · exact hquiet (hcaps bets) hi₂ (by simp) fun _ w₃ _ => hcreate _ w₃
  · rintro (e | b) w₂ hi₂ h
    · exact hquiet (await_quiet rfl) hi₂ (by simp) fun _ _ _ _ _ _ _ h => by cases h
    · exact h

lemma keeps_placeBet (a : PlaceBet) :
    Keeps (ownTransactions P σ) i (fun _ => True) (BetsService.placeBet P a) := by
  refine placeBet_built (keeps_compositional lasting_true.stable) (keeps_quiet lasting_true) a
    fun slot wl amt f hf w hi _ => sat_bind (sat_attempt ((sat_reserve a slot wl amt hi).mono ?_))
  rintro (e | b) w₁ hi₁ hslot
  · obtain ⟨x, hx⟩ := hf.1 e
    dsimp only
    rw [hx]
    exact fun _ _ _ => trivial
  · dsimp only
    rw [hf.2 b]
    have hJ : (ownTransactions P σ).Lasting (HadSlot b slot) := lasting_hadSlot
    exact (debitAndActivate_built (keeps_compositional hJ.stable) (keeps_quiet hJ) slot wl amt b
      (rollsBack_of_slot hJ fun _ h => h) w₁ hi₁ (hslot b rfl)).mono fun _ _ _ _ => trivial

lemma keeps_voids (op b : ℕ) :
    Keeps (ownTransactions P σ) i (fun _ => True) (BetsService.voidBet P op b) := by
  refine keeps_voidBet op lasting_true.stable (keeps_quiet lasting_true (await_quiet rfl))
    fun bet w hi _ hrow hst => ?_
  have hJ : (ownTransactions P σ).Lasting (HadSlot b bet.slot) := lasting_hadSlot
  have hclaim : (BetsService.claimVoid b bet.status).Uses fun s : Stmt => s.quiet := by
    unfold BetsService.claimVoid
    split
    · trivial
    · exact await_quiet rfl
  refine (keeps_bind (keeps_quiet hJ hclaim) (fun claim => ?_) w hi (.now hrow)).mono fun _ _ _ _ => trivial
  split
  · exact keeps_raise hJ.stable _
  · exact keeps_bind (keeps_performVoidReversals hJ fun _ h => h) fun _ =>
      keeps_bind (keeps_finish hJ b) fun _ => keeps_ret hJ.stable _

lemma keeps_reconcileVoidingBets (l : ℕ) :
    Keeps (ownTransactions P σ) i (fun _ => True) (BetsService.reconcileVoidingBets P l) := by
  refine keeps_found fun rows => keeps_over 0 fun x n hslot => ?_
  exact keeps_bind (keeps_attempt (keeps_bind (keeps_performVoidReversals lasting_slots hslot) fun _ =>
    keeps_finish lasting_slots x.1)) fun _ => keeps_ret lasting_slots.stable _

lemma keeps_drains (l : ℕ) :
    Keeps (ownTransactions P σ) i (fun _ => True) (drainPending P.operatorMode l) := by
  have hT (rows : List (RollbackRef × WalletRollback)) :
      (ownTransactions P σ).Lasting fun w => ∀ x ∈ rows, Own σ x.1 x.2.transactionId w :=
    .all fun _ => lasting_own
  refine keeps_drainPending lasting_true.stable (fun hp => keeps_plain lasting_true hp)
    (fun rows => (hT rows).stable) (fun rows w hi hrows x hx => hi.rows x.1 x.2 (hrows x.1 x.2 hx))
    (fun rows n x hx => ?_) _ l
  exact keeps_drainOne (lasting_true.and (hT rows)) (fun w hw => hw.2 x hx) n

lemma parts_ownTransactions : Parts P fun _ p => Keeps (ownTransactions P σ) i (fun _ => True) p := by
  have hT : (ownTransactions P σ).Lasting fun _ => True := lasting_true
  have hS (rows : List (ℕ × Bet)) : (ownTransactions P σ).Lasting (SlotsOf rows) := lasting_slots
  have hK := keeps_compositional hT.stable (i := i)
  have hKS (rows : List (ℕ × Bet)) := keeps_compositional (hS rows).stable (i := i)
  have hoff {α : Type} {p : Program game α} (hp : p.Uses fun s : Stmt => s.quiet) :
      Keeps (ownTransactions P σ) i (fun _ => True) p := keeps_quiet hT hp
  exact {
    plain := fun hp => keeps_plain lasting_true hp
    placeBet := fun a _ => keeps_placeBet a
    cancelBet := cancelBet_built hK hoff
    cashOut := cashOut_built hK hoff
    settleRound := settleRound_built hoff
    voidBet := keeps_voids
    reconcileVoidingBets := keeps_reconcileVoidingBets
    reconcilePendingPayouts := reconcilePendingPayouts_built hK hoff
    closeAndRefundRound := fun r => keeps_found fun rows =>
      keeps_bind (keeps_over () fun x _ hslot => refundOne_built (hKS rows) (keeps_quiet (hS rows)) x
        (rollsBack_of_slot (hS rows) hslot)) fun _ => keeps_quiet (hS rows) (await_quiet rfl)
    recoverReservingBets := fun t => keeps_bind (cutoffOf_built hK hoff t) fun _ => keeps_found fun rows =>
      keeps_over 0 fun x n hslot => recoverOne_built (hKS rows) (keeps_quiet (hS rows)) n x
        (rollsBack_of_slot (hS rows) hslot)
    recoverStrandedActiveBets := fun t => keeps_bind (hoff (await_quiet rfl)) fun _ => keeps_found fun rows =>
      keeps_over 0 fun x n hslot => healOne_built (hKS rows) (keeps_quiet (hS rows)) n x
        (rollsBack_of_slot (hS rows) hslot)
    drainPending := keeps_drains }

lemma ownTransactions_sound : (ownTransactions P σ).Sound :=
  sound_of_uses (parts_uses (fun _ _ => trivial) fun _ _ _ => trivial) (fun _ => lasting_true.stable)
    (fun _ => parts_ownTransactions) (fun _ _ _ _ _ _ => ownTransactions_step)
    (fun _ _ => ownTransactions_move)
    (fun _ _ _ _ => trivial) (fun _ _ _ _ _ => trivial) fun _ _ _ _ _ _ _ _ => trivial

end Service

/-- What is noted down at the start is the own transaction of the row. -/
lemma OwnRows.own {row : WalletRollback} (hσ : OwnRows σ) (hrow : σ.rollbacks.row ref = some row) :
    Own σ ref row.transactionId w := by
  obtain ⟨-, hkey⟩ := hσ ref row hrow
  unfold Own
  split
  · rwa [if_pos ‹_›] at hkey
  · exact .inl ⟨row, hrow, rfl⟩

lemma ownInv_initial (hσ : OwnRows σ) : OwnInv σ ⟨σ, []⟩ := by
  have hnow {b : ℕ} {slot : Slot} (h : HadSlot b slot ⟨σ, []⟩) :
      ∃ y, σ.bets.row b = some y ∧ y.slot = slot := by
    obtain ⟨y, rfl, hy | ⟨x, hx, -⟩⟩ := h
    · exact ⟨y, hy, rfl⟩
    · cases hx
  refine ⟨fun b slot h => ?_, fun b slot slot' h h' => ?_, fun ref row hrow => ?_, fun ref row hrow => ?_,
    trivial⟩
  · obtain ⟨y, hy, -⟩ := hnow h
    exact σ.bets.fresh b y hy
  · obtain ⟨y, hy, rfl⟩ := hnow h
    obtain ⟨y', hy', rfl⟩ := hnow h'
    rw [Option.some.inj (hy.symm.trans hy')]
  · obtain ⟨hlt, hkey⟩ := hσ ref row hrow
    refine ⟨hlt, fun hreason slot h => ?_⟩
    obtain ⟨y, hy, rfl⟩ := hnow h
    rw [if_neg hreason] at hkey
    exact hkey y hy
  · exact hσ.own hrow

lemma ownInv_reaches {R : GameRule} {c : GameConfig} (hσ : OwnRows σ)
    (hc : R.Reaches (system P) (Config.initial σ) c) : OwnInv σ c.world :=
  have hgood : (Config.initial σ).Good (ownTransactions P σ) := Config.good_initial (ownInv_initial hσ)
  (hgood.reaches ownTransactions_sound hc.free).inv

lemma OwnInv.emission (hi : OwnInv σ w) (hlog : w.log = later ++ x :: earlier) {op : ℕ}
    (hx : x.Issues i (Stmt.operatorRollback op k b)) (href : refOf i earlier = some ref) :
    op = ref.operatorId ∧ b = ref.betId ∧ Own σ ref k w := by
  obtain ⟨ref', href', rfl, rfl, hown⟩ := hi.emitted.split hlog i op k b hx
  obtain rfl := Option.some.inj (href.symm.trans href')
  exact ⟨rfl, rfl, hown.mono fun _ h => h.of_split hlog⟩

lemma OwnInv.debit {y : Bet} (hi : OwnInv σ w) (h : Own σ ref k w) (hreason : ref.reason ≠ .voidReclaim)
    (hy : HadSlot ref.betId y.slot w) : k = .debit y.slot :=
  h.unique hi (own_of_hadSlot hy hreason)

end VaultRun.Game.Transactions
