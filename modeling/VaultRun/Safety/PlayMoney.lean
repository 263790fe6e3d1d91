import VaultRun.Operators.Frame

/-!
Play money and real money: the sessions of a wallet are of one operator, player, currency and mode, the moves of
its money go where they say, and a revocation meets the wallets of the player it names, unless the name reads as
a demo wallet of another.
-/

namespace VaultRun.Safety.PlayMoney

open VaultRun.Concurrency VaultRun.Operators Program

/-- What a call has learnt of wallets: the one it launches on with its name, and what it has read of one. -/
structure Hand where
  wallet : Option (ℕ × String) := none
  session : Option (ℕ × Option Identity) := none
  name : Option (ℕ × Option String) := none
  resolved : Option (ℕ × OperatorSession) := none
  candidates : Option (List (ℕ × String)) := none
  revoked : List ℕ := []
  settled : Option (Move × ℕ × Option OperatorSession) := none

namespace Hand

def learn (m : Hand) : (s : Stmt) → operators.Reply s → Hand
  | .findWallet _ n, .ok (some w) => { m with wallet := some (w, n) }
  | .findWalletOrThrow _ n, .ok w => { m with wallet := some (w, n) }
  | .createUser n _, .ok w => { m with wallet := some (w, n) }
  | .findSession w, .ok s => { m with session := some (w, s.map (·.toIdentity)) }
  | .findUsername w, .ok n => { m with name := some (w, n) }
  | .findLatestSession w, .ok s => { m with resolved := some (w, s.toIdentity.session) }
  | .findWallets _, .ok c => { m with candidates := some c }
  | .revokeSessions w, .ok _ => { m with revoked := m.revoked ++ [w] }
  | .ledger mv w, .ok _ => { m with settled := some (mv, w, none) }
  | .operator mv w s, .ok _ => { m with settled := some (mv, w, some s) }
  | _, _ => m

def Says (m : Hand) (w : ℕ) (demo : Bool) : Prop :=
  (∃ x : Identity, m.session = some (w, some x) ∧ x.demo = demo) ∨
    ∃ n : Option String, m.name = some (w, n) ∧ (!isRealOperatorWallet (n.getD "")) = demo

end Hand

def Allows (U : UpperCase) (e : Event) (m : Hand) : Stmt → Prop
  | .createUser n _ => ∃ x : Identity, n = x.tag
  | .createSession row => m.wallet = some (row.walletId, row.toIdentity.tag)
  | .resetTo w _ => ∃ x : Identity, m.wallet = some (w, x.tag) ∧ x.demo = true
  | .findUsername w => ∃ c : Call, ∃ mv, e = .call c ∧ c.move = some (mv, w)
  | .findWallets f => ∃ o p cur, e = .call (.revokeForOperatorPlayer o p cur) ∧ f = candidate U o p cur
  | .ledger _ w => m.Says w true
  | .operator _ w s => m.Says w false ∧ m.resolved = some (w, s)
  | _ => True

/-- A revocation that comes to its end has met the wallets it has chosen, and a move has been made. -/
structure Finishes (e : Event) (r : Except Err Outcome) (m : Hand) : Prop where
  revoked : ∀ o p cur out, e = .call (.revokeForOperatorPlayer o p cur) → r = .ok out →
    ∃ c, m.candidates = some c ∧ m.revoked = (GameSessionService.chosen o p c).map (·.1)
  settled : ∀ c mv w out, e = .call c → c.move = some (mv, w) → r = .ok out → ∃ s, m.settled = some (mv, w, s)

section Programs

variable {U : UpperCase} {e : Event} {m : Hand} {w : ℕ} {x : Identity}

lemma follows_walletOf : Follows Hand.learn (Allows U e)
    (fun r m => ∀ w, r = .ok w → m.wallet = some (w, x.tag)) (GameSessionService.walletOf x) m := by
  refine follows_await_bind trivial (fun found => ?_) fun e w h => by cases h
  cases found with
  | some w =>
      intro w' hw'
      obtain rfl := Except.ok.inj hw'
      rfl
  | none =>
      refine follows_catching (follows_await (I := operators) ⟨x, rfl⟩ fun r => ?_)
      cases r with
      | ok w =>
          intro w' hw'
          obtain rfl := Except.ok.inj hw'
          rfl
      | error e =>
          dsimp only
          split
          · refine follows_await (I := operators) trivial fun r w' hw' => ?_
            subst hw'
            rfl
          · intro w' hw'
            cases hw'

lemma follows_verify {t : LaunchToken} : Follows Hand.learn (Allows U e) (fun _ _ => True)
    (LaunchTokenService.verify U t) m := by
  refine follows_await_bind trivial (fun op => ?_) fun _ => trivial
  cases op with
  | none => trivial
  | some op =>
      dsimp only
      split
      · trivial
      · split
        · trivial
        · split
          · trivial
          · split
            · split
              · trivial
              · refine follows_await_bind trivial (fun used => ?_) fun _ => trivial
                cases used <;> trivial
            · trivial

lemma follows_openFromToken {t : LaunchToken} : Follows Hand.learn (Allows U e) (fun _ _ => True)
    (GameSessionService.openFromToken U t) m := by
  refine follows_bind (follows_verify.mono fun r m _ => ?_)
  cases r with
  | error e => trivial
  | ok v =>
      obtain ⟨x, jti⟩ := v
      refine follows_await_bind trivial (fun _ => ?_) fun _ => trivial
      refine follows_bind (follows_walletOf.mono fun r m hr => ?_)
      cases r with
      | error e => trivial
      | ok w =>
          have hw : m.wallet = some (w, x.tag) := hr w rfl
          refine follows_bind (follows_catching (follows_await (I := operators) hw fun r => ?_))
          cases r with
          | ok k =>
              dsimp only
              split
              · rename_i hd
                exact follows_await_bind ⟨x, hw, hd⟩ (fun _ => trivial) fun _ => trivial
              · trivial
          | error e =>
              dsimp only
              by_cases he : e = .p2002
              · rw [if_pos he]
                trivial
              · rw [if_neg he]
                trivial

lemma follows_isDemoWallet (hw : ∃ c : Call, ∃ mv, e = .call c ∧ c.move = some (mv, w)) :
    Follows Hand.learn (Allows U e) (fun r m => ∀ d, r = .ok d → m.Says w d)
      (GameSessionService.isDemoWallet w) m := by
  refine follows_await_bind trivial (fun s => ?_) fun e d h => by cases h
  cases s with
  | some s =>
      intro d hd
      obtain rfl := Except.ok.inj hd
      exact .inl ⟨_, rfl, rfl⟩
  | none =>
      refine follows_await_bind hw (fun n => ?_) fun e d h => by cases h
      intro d hd
      obtain rfl := Except.ok.inj hd
      exact .inr ⟨n, rfl, rfl⟩

lemma follows_route {mv : Move} (hw : ∃ c : Call, ∃ mv, e = .call c ∧ c.move = some (mv, w)) :
    Follows Hand.learn (Allows U e) (fun r m => ∀ u, r = .ok u → ∃ s, m.settled = some (mv, w, s))
      (WalletRouter.route mv w) m := by
  refine follows_bind ((follows_isDemoWallet hw).mono fun r m hr => ?_)
  cases r with
  | error e => exact fun u h => by cases h
  | ok d =>
      have hmode : m.Says w d := hr d rfl
      cases d with
      | true =>
          refine follows_await (I := operators) hmode fun r u hu => ?_
          subst hu
          exact ⟨none, rfl⟩
      | false =>
          refine follows_bind (follows_await_bind trivial (fun s => ?_) fun e u h => by cases h)
          refine follows_await (I := operators) ⟨hmode, rfl⟩ fun r u hu => ?_
          subst hu
          exact ⟨some _, rfl⟩

lemma follows_revokeForWallet : Follows Hand.learn (Allows U e)
    (fun r m' => ∀ n, r = .ok n → m'.candidates = m.candidates ∧ m'.revoked = m.revoked ++ [w])
    (GameSessionService.revokeForWallet w) m := by
  refine follows_await_bind trivial (fun live => ?_) fun e n h => by cases h
  refine follows_await (I := operators) trivial fun r n hr => ?_
  subst hr
  exact ⟨rfl, rfl⟩

lemma follows_revokeAll {ws : List (ℕ × String)} {acc : ℕ} : Follows Hand.learn (Allows U e)
    (fun r m' => ∀ n, r = .ok n → m'.candidates = m.candidates ∧ m'.revoked = m.revoked ++ ws.map (·.1))
    (loop (fun revoked w => (revoked + ·) <$> GameSessionService.revokeForWallet w.1) acc ws) m := by
  induction ws generalizing acc m with
  | nil => exact fun n _ => ⟨rfl, by simp⟩
  | cons w ws ih =>
      refine follows_bind (follows_map (follows_revokeForWallet.mono fun r m' hr => ?_))
      cases r with
      | error e => exact fun n h => by cases h
      | ok n =>
          obtain ⟨hc, hrev⟩ := hr n rfl
          refine ih.mono fun r m'' hr n hn => ?_
          obtain ⟨hc', hrev'⟩ := hr n hn
          refine ⟨hc'.trans hc, ?_⟩
          rw [hrev', hrev, List.map_cons, List.append_assoc, List.singleton_append]

lemma follows_revokeForOperatorPlayer {o : Uuid} {p : String} {cur : Option String} (hm : m.revoked = [])
    (he : e = .call (.revokeForOperatorPlayer o p cur)) : Follows Hand.learn (Allows U e)
      (fun r m' => ∀ n, r = .ok n → ∃ c, m'.candidates = some c ∧
        m'.revoked = (GameSessionService.chosen o p c).map (·.1))
      (GameSessionService.revokeForOperatorPlayer U o p cur) m := by
  refine follows_await_bind ⟨o, p, cur, he, rfl⟩ (fun c => ?_) fun e n h => by cases h
  refine follows_bind (follows_revokeAll.mono fun r m' hr => ?_)
  cases r with
  | error e => exact fun n h => by cases h
  | ok n =>
      intro n' _
      obtain ⟨hc, hrev⟩ := hr n rfl
      refine ⟨c, hc, ?_⟩
      rw [hrev]
      exact congrArg (· ++ _) hm

lemma follows_call {σ σ' : State} {p : Program operators Outcome} (h : environment U e σ = some (σ', some p)) :
    Follows Hand.learn (Allows U e) (Finishes e) p {} := by
  cases e with
  | provision | guest | deleteSession => cases (Prod.mk.inj (Option.some.inj h)).2
  | call c =>
      have hp : p = c.prog U := by
        unfold environment at h
        dsimp only at h
        split at h
        · exact (Option.some.inj (Prod.mk.inj (Option.some.inj h)).2).symm
        · cases h
      subst hp
      cases c with
      | openFromToken t =>
          refine follows_map (follows_openFromToken.mono fun r m _ => ⟨?_, ?_⟩)
          · intro o p cur out he
            cases he
          · intro c mv w out he hmove
            cases he
            cases hmove
      | revokeForWallet w =>
          refine follows_map (follows_revokeForWallet.mono fun r m _ => ⟨?_, ?_⟩)
          · intro o p cur out he
            cases he
          · intro c mv w out he hmove
            cases he
            cases hmove
      | revokeForOperatorPlayer o p cur =>
          refine follows_map ((follows_revokeForOperatorPlayer rfl rfl).mono fun r m hr => ⟨?_, ?_⟩)
          · intro o' p' cur' out he hout
            cases he
            cases r with
            | error e => cases hout
            | ok n => exact hr n rfl
          · intro c mv w out he hmove
            cases he
            cases hmove
      | debit w | credit w | rollback w | reverse w | getBalance w =>
          refine follows_map ((follows_route ⟨_, _, rfl, rfl⟩).mono fun r m hr => ⟨?_, ?_⟩)
          · intro o p cur out he
            cases he
          · intro c mv w out he hmove hout
            cases he
            cases hmove
            cases r with
            | error e => cases hout
            | ok u => exact hr u rfl

end Programs

def hand (i : ℕ) (log : List OperatorsEntry) : Hand := foldBy Hand.learn {} i log

structure Hand.Holds (σ : State) (m : Hand) : Prop where
  wallet : ∀ w n, m.wallet = some (w, n) → σ.usernameOf w = some n
  session : ∀ w x, m.session = some (w, some x) → σ.usernameOf w = some x.tag
  name : ∀ w n, m.name = some (w, n) → ∃ v, n = some v ∧ σ.usernameOf w = some v
  resolved : ∀ w s, m.resolved = some (w, s) → ∃ x : Identity, σ.usernameOf w = some x.tag ∧ s = x.session

/-- The sessions after a step are on wallets of their tags, and the money it has moved is of a wallet whose name
says so. -/
structure Fair (σ : State) (x : OperatorsEntry) : Prop where
  opened : ∀ k s, x.after.sessions.row k = some s → σ.usernameOf s.walletId = some s.toIdentity.tag
  ledger : ∀ i mv w, x.Issues i (Stmt.ledger mv w) → ∃ n, σ.usernameOf w = some n ∧ isRealOperatorWallet n = false
  operator : ∀ i mv w s, x.Issues i (Stmt.operator mv w s) →
    ∃ y : Identity, σ.usernameOf w = some y.tag ∧ y.demo = false ∧ s = y.session
  reset : ∀ i w k, x.Issues i (Stmt.resetTo w k) → ∃ y : Identity, σ.usernameOf w = some y.tag ∧ y.demo = true

section Holds

variable {U : UpperCase} {e : Event} {σ σ' : State} {m : Hand} {w i : ℕ} {o : Oracle} {s : Stmt} {r : operators.Reply s}
  {x : OperatorsEntry} {d : Bool}

lemma Hand.Holds.later (h : m.Holds σ) (hl : Later σ σ') : m.Holds σ' where
  wallet w n hw := hl w n (h.wallet w n hw)
  session w x hw := hl w _ (h.session w x hw)
  name w n hn := by
    obtain ⟨v, hv, hname⟩ := h.name w n hn
    exact ⟨v, hv, hl w v hname⟩
  resolved w s hs := by
    obtain ⟨x, hx, hsession⟩ := h.resolved w s hs
    exact ⟨x, hl w _ hx, hsession⟩

lemma Fair.later (h : Fair σ x) (hl : Later σ σ') : Fair σ' x where
  opened k s hk := hl _ _ (h.opened k s hk)
  ledger i mv w hx := by
    obtain ⟨n, hn, hreal⟩ := h.ledger i mv w hx
    exact ⟨n, hl w n hn, hreal⟩
  operator i mv w s hx := by
    obtain ⟨y, hy, hd, hs⟩ := h.operator i mv w s hx
    exact ⟨y, hl w _ hy, hd, hs⟩
  reset i w k hx := by
    obtain ⟨y, hy, hd⟩ := h.reset i w k hx
    exact ⟨y, hl w _ hy, hd⟩

lemma Hand.Holds.mode (h : m.Holds σ) (hm : m.Says w d) :
    ∃ n, σ.usernameOf w = some n ∧ isRealOperatorWallet n = !d := by
  rcases hm with ⟨x, hx, rfl⟩ | ⟨n, hn, rfl⟩
  · exact ⟨x.tag, h.session w x hx, isReal_tag⟩
  · obtain ⟨v, rfl, hv⟩ := h.name w n hn
    exact ⟨v, hv, by simp⟩

lemma findWallet_named {c n : String} (h : σ.findWallet c n = some w) : σ.usernameOf w = some n := by
  obtain ⟨⟨k, wallet⟩, hk, rfl⟩ := Option.map_eq_some_iff.1 h
  obtain ⟨-, hmem⟩ := Data.Table.mem_findMany.1 (List.mem_of_mem_head? hk)
  rw [Bool.and_eq_true, decide_eq_true_eq, decide_eq_true_eq] at hmem
  exact hmem.2

lemma session_of_mem {k : ℕ} {row : Session} (hσ : Sound σ) (h : (k, row) ∈ σ.sessionsOf w) :
    σ.usernameOf w = some row.toIdentity.tag := by
  obtain ⟨hrow, hw⟩ := Data.Table.mem_findMany.1 h
  obtain rfl : row.walletId = w := by simpa using hw
  exact hσ.tagged k row hrow

lemma Hand.Holds.learn (hm : m.Holds σ) (hσ : Sound σ) (h : exec o s σ = (r, σ'))
    (hname : ∀ w, s = .findUsername w → ∃ n, σ.usernameOf w = some n) : (m.learn s r).Holds σ' := by
  have hkeep := hm.later (later_exec h)
  cases r with
  | error e => cases s <;> exact hkeep
  | ok a =>
      have hp := perform_of_ok h
      have hl : Later σ σ' := later_exec h
      cases s with
      | findWallet c n =>
          have ha : σ.findWallet c n = a := Except.ok.inj (congrArg Prod.fst hp)
          cases a with
          | none => exact hkeep
          | some w =>
              refine { hkeep with wallet := fun w' n' hw => ?_ }
              obtain ⟨rfl, rfl⟩ := Prod.mk.inj (Option.some.inj hw)
              exact hl _ _ (findWallet_named ha)
      | findWalletOrThrow c n =>
          refine { hkeep with wallet := fun w' n' hw => ?_ }
          obtain ⟨rfl, rfl⟩ := Prod.mk.inj (Option.some.inj hw)
          unfold perform at hp
          dsimp only at hp
          split at hp
          · rename_i w hfound
            obtain rfl : w = a := Except.ok.inj (congrArg Prod.fst hp)
            exact hl _ _ (findWallet_named hfound)
          · cases congrArg Prod.fst hp
      | createUser n c =>
          refine { hkeep with wallet := fun w' n' hw => ?_ }
          obtain ⟨rfl, rfl⟩ := Prod.mk.inj (Option.some.inj hw)
          have hcreated := usernameOf_created (congrArg Prod.fst hp)
          rwa [show (σ.createUser n c).2 = σ' from congrArg Prod.snd hp] at hcreated
      | findSession w =>
          have ha : (σ.sessionsOf w).head?.map (·.2) = a := Except.ok.inj (congrArg Prod.fst hp)
          refine { hkeep with session := fun w' x hw => ?_ }
          obtain ⟨rfl, hx⟩ := Prod.mk.inj (Option.some.inj hw)
          obtain ⟨row, rfl, rfl⟩ := Option.map_eq_some_iff.1 hx
          obtain ⟨⟨k, row'⟩, hk, rfl⟩ := Option.map_eq_some_iff.1 ha
          exact hl _ _ (session_of_mem hσ (List.mem_of_mem_head? hk))
      | findUsername w =>
          have ha : σ.usernameOf w = a := Except.ok.inj (congrArg Prod.fst hp)
          refine { hkeep with name := fun w' n hw => ?_ }
          obtain ⟨rfl, rfl⟩ := Prod.mk.inj (Option.some.inj hw)
          obtain ⟨n, hn⟩ := hname w rfl
          exact ⟨n, ha.symm.trans hn, hl _ _ hn⟩
      | findLatestSession w =>
          refine { hkeep with resolved := fun w' s hw => ?_ }
          obtain ⟨rfl, rfl⟩ := Prod.mk.inj (Option.some.inj hw)
          unfold perform at hp
          dsimp only at hp
          split at hp
          · rename_i row hfound
            obtain rfl : row.2 = a := Except.ok.inj (congrArg Prod.fst hp)
            exact ⟨_, hl _ _ (session_of_mem hσ (List.mem_of_mem_getLast? hfound)), rfl⟩
          · cases congrArg Prod.fst hp
      | _ => exact { hkeep with }

lemma fair_of_allowed (hm : m.Holds σ) (ha : Allows U e m s) (hs : Sound σ') (h : exec o s σ = (r, σ')) :
    Fair σ' (.answered i s r σ σ') where
  opened := hs.tagged
  ledger j mv w hx := by
    obtain ⟨r', b, a, heq⟩ := hx
    obtain ⟨-, rfl, -⟩ := Entry.answered.inj heq
    obtain ⟨n, hn, hreal⟩ := hm.mode ha
    exact ⟨n, later_exec h w n hn, hreal⟩
  operator j mv w s' hx := by
    obtain ⟨r', b, a, heq⟩ := hx
    obtain ⟨-, rfl, -⟩ := Entry.answered.inj heq
    obtain ⟨n, hn, hreal⟩ := hm.mode ha.1
    obtain ⟨y, hy, hsession⟩ := hm.resolved w s' ha.2
    obtain rfl : n = y.tag := Option.some.inj (hn.symm.trans hy)
    rw [isReal_tag] at hreal
    exact ⟨y, later_exec h w _ hy, by simpa using hreal, hsession⟩
  reset j w k hx := by
    obtain ⟨r', b, a, heq⟩ := hx
    obtain ⟨-, rfl, -⟩ := Entry.answered.inj heq
    obtain ⟨y, hy, hd⟩ := ha
    exact ⟨y, later_exec h w _ (hm.wallet w _ hy), hd⟩

lemma fair_of_silent (hx : ∀ i s, ¬ x.Issues i s) (hafter : x.after = σ) (hs : Sound σ) : Fair σ x where
  opened := hafter ▸ hs.tagged
  ledger _ _ _ h := absurd h (hx _ _)
  operator _ _ _ _ h := absurd h (hx _ _)
  reset _ _ _ h := absurd h (hx _ _)

lemma lawful_of_allowed (hm : m.Holds σ) (ha : Allows U e m s) : s.Lawful σ := by
  cases s with
  | createUser n c => exact ha
  | createSession row => exact hm.wallet _ _ ha
  | _ => trivial

end Holds

def Revokes (i w : ℕ) (log : List OperatorsEntry) : Prop :=
  ∃ n b a, .answered i (.revokeSessions w) (.ok n) b a ∈ log

def Finds (i : ℕ) (named : String → Bool) (c : List (ℕ × String)) (b : State) (log : List OperatorsEntry) : Prop :=
  ∃ a, .answered i (.findWallets named) (.ok c) b a ∈ log

/-- Call `i` has made a move of the money of a wallet, at the operator under a session or at the ledger. -/
def Settles (i : ℕ) (mv : Move) (w : ℕ) : Option OperatorSession → OperatorsEntry → Prop
  | none, x => x.Issues i (Stmt.ledger mv w)
  | some s, x => x.Issues i (Stmt.operator mv w s)

section Entries

variable {i w : ℕ} {log : List OperatorsEntry} {mv : Move} {s : Option OperatorSession} {x : OperatorsEntry}

lemma Revokes.cons (h : Revokes i w log) : Revokes i w (x :: log) := by
  obtain ⟨n, b, a, hx⟩ := h
  exact ⟨n, b, a, .tail _ hx⟩

lemma revoked_learn {m : Hand} {s : Stmt} {r : operators.Reply s} (h : ∀ v, s ≠ .revokeSessions v) :
    (m.learn s r).revoked = m.revoked := by
  unfold Hand.learn
  split
  all_goals first | rfl | exact absurd rfl (h _)

lemma settles_of_settled (h : (hand i log).settled = some (mv, w, s)) : ∃ x ∈ log, Settles i mv w s x := by
  induction log with
  | nil => cases h
  | cons x log ih =>
      have hlater (h : (hand i log).settled = some (mv, w, s)) : ∃ y ∈ x :: log, Settles i mv w s y := by
        obtain ⟨y, hy, hs⟩ := ih h
        exact ⟨y, .tail _ hy, hs⟩
      cases x with
      | moved | killed => exact hlater h
      | answered j t r b a =>
          by_cases hij : j = i
          · subst hij
            rw [hand, foldBy_self] at h
            unfold Hand.learn at h
            split at h
            case h_9 =>
              obtain ⟨rfl, rfl, rfl⟩ := by simpa using h
              exact ⟨_, List.mem_cons_self, _, _, _, rfl⟩
            case h_10 =>
              obtain ⟨rfl, rfl, rfl⟩ := by simpa using h
              exact ⟨_, List.mem_cons_self, _, _, _, rfl⟩
            all_goals exact hlater h
          · rw [hand, foldBy_answered hij] at h
            exact hlater h

lemma mem_revoked : w ∈ (hand i log).revoked ↔ Revokes i w log := by
  induction log with
  | nil => simp [hand, Revokes]
  | cons x log ih =>
      have hskip (h : ∀ n b a, x ≠ .answered i (.revokeSessions w) (.ok n) b a) :
          Revokes i w (x :: log) ↔ Revokes i w log := by
        refine ⟨?_, Revokes.cons⟩
        rintro ⟨n, b, a, hx⟩
        rcases List.mem_cons.1 hx with heq | hx
        · exact absurd heq.symm (h n b a)
        · exact ⟨n, b, a, hx⟩
      cases x with
      | moved | killed =>
          rw [hskip (by simp), ← ih]
          rfl
      | answered j s r b a =>
          by_cases hij : j = i
          · subst hij
            rw [hand, foldBy_self]
            by_cases hs : ∃ v, s = .revokeSessions v
            · obtain ⟨v, rfl⟩ := hs
              cases r with
              | error e =>
                  rw [hskip (by simp), ← ih]
                  rfl
              | ok n =>
                  by_cases hv : v = w
                  · subst hv
                    exact iff_of_true (List.mem_append_right _ List.mem_cons_self) ⟨n, b, a, List.mem_cons_self⟩
                  · rw [hskip (by simp [hv]), ← ih]
                    exact List.mem_append.trans (or_iff_left (by simpa using Ne.symm hv))
            · rw [revoked_learn (not_exists.1 hs), hskip (fun n b a h => hs ⟨w, (Entry.answered.inj h).2.1⟩), ← ih]
              rfl
          · rw [hskip (by simp [hij]), ← ih, hand, foldBy_answered hij]
            rfl

end Entries

structure Inv (U : UpperCase) (args : ℕ → Event) (w : OperatorsWorld) : Prop where
  sound : Sound w.state
  started : ∀ i c b a, .moved i (.call c) b a ∈ w.log → args i = .call c ∧
    ∀ mv v, c.move = some (mv, v) → ∃ n, w.state.usernameOf v = some n
  hands : ∀ i, (hand i w.log).Holds w.state
  fair : ∀ x ∈ w.log, Fair w.state x
  found : ∀ i c, (hand i w.log).candidates = some c → ∃ o p cur b, args i = .call (.revokeForOperatorPlayer o p cur) ∧
    Finds i (candidate U o p cur) c b w.log ∧ c = b.findWallets (candidate U o p cur) ∧ Sound b

section Invariant

variable {U : UpperCase} {args : ℕ → Event} {w : OperatorsWorld} {i n : ℕ} {o : Oracle} {s : Stmt}
  {r : operators.Reply s} {a : State} {e : Event} {p : Option (Program operators Outcome)}
  {x : OperatorsEntry} {named : String → Bool} {cs : List (ℕ × String)} {b : State} {log : List OperatorsEntry}

lemma Finds.cons (h : Finds i named cs b log) : Finds i named cs b (x :: log) := by
  obtain ⟨a, ha⟩ := h
  exact ⟨a, .tail _ ha⟩

lemma candidates_learn {m : Hand} (h : ∀ f, s ≠ .findWallets f) : (m.learn s r).candidates = m.candidates := by
  unfold Hand.learn
  split
  all_goals first | rfl | exact absurd rfl (h _)

lemma Inv.answer (h : Inv U args w) (hx : ∃ x ∈ w.log, Begins (system U) args i x)
    (ha : Allows U (args i) (hand i w.log) s) (he : exec o s w.state = (r, a)) : Inv U args (w.answer i s r a) := by
  have hl : Later w.state a := later_exec he
  have hlawful : s.Lawful w.state := lawful_of_allowed (h.hands i) ha
  have hsound : Sound a := h.sound.exec hlawful he
  have hname (v : ℕ) (hs : s = .findUsername v) : ∃ n, w.state.usernameOf v = some n := by
    subst hs
    obtain ⟨c, mv, hargs, hmove⟩ := ha
    obtain ⟨x, hx, b, a', p, rfl, -⟩ := hx
    rw [hargs] at hx
    exact (h.started i c b a' hx).2 mv v hmove
  refine ⟨hsound, fun j c b a' hj => ?_, fun j => ?_, fun x hx => ?_, fun j c hc => ?_⟩
  · have hmem : .moved j (.call c) b a' ∈ w.log := by simpa using hj
    obtain ⟨hargs, hexists⟩ := h.started j c b a' hmem
    refine ⟨hargs, fun mv v hmove => ?_⟩
    obtain ⟨n, hn⟩ := hexists mv v hmove
    exact ⟨n, hl v n hn⟩
  · by_cases hij : i = j
    · subst hij
      rw [World.answer_log, hand, foldBy_self]
      exact (h.hands i).learn h.sound he hname
    · rw [World.answer_log, hand, foldBy_answered hij]
      exact (h.hands j).later hl
  · rcases List.mem_cons.1 hx with rfl | hx
    · exact fair_of_allowed (h.hands i) ha hsound he
    · exact (h.fair x hx).later hl
  · have hkeep (hc : (hand j w.log).candidates = some c) : ∃ o p cur b,
        args j = .call (.revokeForOperatorPlayer o p cur) ∧
          Finds j (candidate U o p cur) c b (w.answer i s r a).log ∧ c = b.findWallets (candidate U o p cur) ∧ Sound b := by
      obtain ⟨o, p, cur, b, hargs, hfinds, hb⟩ := h.found j c hc
      exact ⟨o, p, cur, b, hargs, hfinds.cons, hb⟩
    by_cases hij : i = j
    · subst hij
      rw [World.answer_log, hand, foldBy_self] at hc
      by_cases hs : ∃ f, s = .findWallets f
      · obtain ⟨f, rfl⟩ := hs
        cases r with
        | error e => exact hkeep hc
        | ok cs =>
            obtain rfl : cs = c := Option.some.inj hc
            obtain ⟨o, p, cur, hargs, rfl⟩ := ha
            have hcs : w.state.findWallets (candidate U o p cur) = cs :=
              Except.ok.inj (congrArg Prod.fst (perform_of_ok he))
            exact ⟨o, p, cur, w.state, hargs, ⟨a, List.mem_cons_self⟩, hcs.symm, h.sound⟩
      · rw [candidates_learn (not_exists.1 hs)] at hc
        exact hkeep hc
    · rw [World.answer_log, hand, foldBy_answered hij] at hc
      exact hkeep hc

lemma Inv.move (h : Inv U args w) (hargs : ∀ a p, environment U e w.state = some (a, some p) → e = args n)
    (he : environment U e w.state = some (a, p)) : Inv U args (w.move n e a) := by
  have hl : Later w.state a := later_environment he
  have hsound : Sound a := h.sound.environment he
  refine ⟨hsound, fun j c b a' hj => ?_, fun j => (h.hands j).later hl, fun x hx => ?_, fun j c hc => ?_⟩
  · rcases List.mem_cons.1 hj with heq | hj
    · obtain ⟨rfl, rfl, rfl, rfl⟩ := Entry.moved.inj heq
      have hsome : ∃ q, p = some q := by
        unfold environment at he
        dsimp only at he
        split at he
        · exact ⟨_, (Prod.mk.inj (Option.some.inj he)).2.symm⟩
        · cases he
      obtain ⟨q, rfl⟩ := hsome
      refine ⟨(hargs _ q he).symm, fun mv v hmove => ?_⟩
      obtain ⟨n, hn⟩ := h.sound.linked v (call_wallet he hmove)
      exact ⟨n, hl v n hn⟩
    · obtain ⟨hj', hexists⟩ := h.started j c b a' hj
      refine ⟨hj', fun mv v hmove => ?_⟩
      obtain ⟨n, hn⟩ := hexists mv v hmove
      exact ⟨n, hl v n hn⟩
  · rcases List.mem_cons.1 hx with rfl | hx
    · exact fair_of_silent (by rintro i s ⟨r, b, a, h⟩; cases h) rfl hsound
    · exact (h.fair x hx).later hl
  · obtain ⟨o, p, cur, b, hargs, hfinds, hb⟩ := h.found j c hc
    exact ⟨o, p, cur, b, hargs, hfinds.cons, hb⟩

lemma Inv.kill (h : Inv U args w) : Inv U args (w.kill i w.state) := by
  refine ⟨h.sound, fun j c b a' hj => h.started j c b a' (by simpa using hj), h.hands, fun x hx => ?_, fun j c hc => ?_⟩
  · rcases List.mem_cons.1 hx with rfl | hx
    · exact fair_of_silent (by rintro i s ⟨r, b, a, h⟩; cases h) rfl h.sound
    · exact h.fair x hx
  · obtain ⟨o, p, cur, b, hargs, hfinds, hb⟩ := h.found j c hc
    exact ⟨o, p, cur, b, hargs, hfinds.cons, hb⟩

lemma inv_initial : Inv U args ⟨.empty, []⟩ := by
  refine ⟨⟨?_, ?_, ?_⟩, by simp, fun i => ⟨?_, ?_, ?_, ?_⟩, by simp, ?_⟩
  all_goals intros
  all_goals simp_all [State.empty, State.usernameOf, hand]

end Invariant

/-- A session for a wallet has stood under an identity at some time. -/
def Opened (log : List OperatorsEntry) (w : ℕ) (x : Identity) : Prop :=
  ∃ e ∈ log, ∃ k s, e.after.sessions.row k = some s ∧ s.walletId = w ∧ s.toIdentity = x

/-- The sessions of a wallet are of one identity, and its money is moved where that identity says. -/
structure Apart (log : List OperatorsEntry) : Prop where
  shared : ∀ w x y, Opened log w x → Opened log w y → x = y
  settled : ∀ w x i mv s, Opened log w x → ∀ e ∈ log, Settles i mv w s e →
    s = if x.demo then none else some x.session
  reset : ∀ w x i k, Opened log w x → ∀ e ∈ log, e.Issues i (Stmt.resetTo w k) → x.demo = true

def Meant (U : UpperCase) (b : State) (o : Uuid) (p : String) (cur : Option String) (w : ℕ) : Prop :=
  ∃ x : Identity, b.usernameOf w = some x.tag ∧ x.Meant U o p cur

/-- No wallet is a demo wallet of another player whose id, with its currency, is the one asked for. -/
def Clear (b : State) (o : Uuid) (p : String) (cur : Option String) : Prop :=
  asked cur = none → ∀ w (x : Identity), b.usernameOf w = some x.tag → ¬ x.Confused o p

section Results

variable {U : UpperCase} {args : ℕ → Event} {w : ℕ} {b : State} {o : Uuid} {p : String} {cur : Option String}
  {c : OperatorsConfig} {log : List OperatorsEntry} {x : Identity} {world : OperatorsWorld}

lemma Inv.opened (h : Inv U args world) (hx : Opened world.log w x) : world.state.usernameOf w = some x.tag := by
  obtain ⟨e, he, k, s, hs, rfl, rfl⟩ := hx
  exact (h.fair e he).opened k s hs

lemma Inv.apart (h : Inv U args world) : Apart world.log where
  shared w x y hx hy := tag_injective (Option.some.inj ((h.opened hx).symm.trans (h.opened hy)))
  settled w x i mv s hx e he hs := by
    have hname := h.opened hx
    cases s with
    | none =>
        obtain ⟨n, hn, hreal⟩ := (h.fair e he).ledger i mv w hs
        obtain rfl : n = x.tag := Option.some.inj (hn.symm.trans hname)
        rw [isReal_tag] at hreal
        simp only [Bool.not_eq_false'] at hreal
        rw [if_pos hreal]
    | some s =>
        obtain ⟨y, hy, hd, rfl⟩ := (h.fair e he).operator i mv w s hs
        obtain rfl : y = x := tag_injective (Option.some.inj (hy.symm.trans hname))
        rw [if_neg (by simp [hd])]
  reset w x i k hx e he hs := by
    obtain ⟨y, hy, hd⟩ := (h.fair e he).reset i w k hs
    obtain rfl : y = x := tag_injective (Option.some.inj (hy.symm.trans (h.opened hx)))
    exact hd

lemma selects_guest {n : String} (h : startsWith n "op:" = false) : selects U o p cur n = false := by
  rw [← Bool.not_eq_true, selects_iff]
  rintro ⟨t, ht, -⟩
  rw [← Bool.not_eq_true, startsWith, List.isPrefixOf_iff_prefix, ht, base_append] at h
  exact h ⟨_, rfl⟩

lemma mem_chosen : w ∈ (GameSessionService.chosen o p (b.findWallets (candidate U o p cur))).map (·.1) ↔
    ∃ n, b.usernameOf w = some n ∧ selects U o p cur n = true := by
  simp only [GameSessionService.chosen, State.findWallets, List.mem_map, List.mem_filter, Prod.exists]
  constructor
  · rintro ⟨k, n, ⟨⟨k', wallet, hk, heq⟩, hsuffix⟩, rfl⟩
    obtain ⟨rfl, rfl⟩ := Prod.mk.inj heq
    obtain ⟨-, hany⟩ := Data.Table.mem_findMany.1 hk
    obtain ⟨n, hn, hcand⟩ := (Option.any_eq_true _ _).1 hany
    rw [hn, Option.getD_some] at hsuffix
    exact ⟨n, hn, by rw [selects, hcand, hsuffix]; rfl⟩
  · rintro ⟨n, hn, hsel⟩
    rw [selects, Bool.and_eq_true] at hsel
    obtain ⟨wallet, user, hwallet, huser, rfl⟩ := usernameOf_eq_some.1 hn
    refine ⟨w, user.username, ⟨⟨w, wallet, Data.Table.mem_findMany.2 ⟨hwallet, ?_⟩, ?_⟩, hsel.2⟩, rfl⟩
    · rw [hn]
      exact hsel.1
    · rw [hn, Option.getD_some]

/-- A request chooses the wallets that it means exactly where no name reads in two ways. -/
lemma chosen_exact (hb : Sound b) :
    (∀ w, w ∈ (GameSessionService.chosen o p (b.findWallets (candidate U o p cur))).map (·.1) ↔ Meant U b o p cur w) ↔
      Clear b o p cur := by
  constructor
  · intro hexact hasked w x hx hconf
    have hmem := mem_chosen.2 ⟨x.tag, hx, (selects_tag (U := U)).2 (.inr ⟨hasked, hconf⟩)⟩
    obtain ⟨y, hy, hmeant⟩ := (hexact w).1 hmem
    obtain rfl : y = x := tag_injective (Option.some.inj (hy.symm.trans hx))
    exact not_meant_of_confused hconf hmeant
  · intro hclear w
    rw [mem_chosen]
    constructor
    · rintro ⟨n, hn, hsel⟩
      rcases hb.named w n hn with ⟨x, rfl⟩ | hguest
      · rcases selects_tag.1 hsel with hmeant | ⟨hasked, hconf⟩
        · exact ⟨x, hn, hmeant⟩
        · exact absurd hconf (hclear hasked w x hn)
      · rw [selects_guest hguest] at hsel
        cases hsel
    · rintro ⟨x, hx, hmeant⟩
      exact ⟨x.tag, hx, selects_tag.2 (.inl hmeant)⟩

end Results

section Scenario

lemma isLower_toUpper (c : Char) : c.toUpper.isLower = false := by
  unfold Char.toUpper
  split
  · rename_i h
    have hlow := UInt32.le_iff_toNat_le.1 h.1
    have hhigh := UInt32.le_iff_toNat_le.1 h.2
    simp only [Char.isLower, Bool.and_eq_false_iff, decide_eq_false_iff_not, ge_iff_le, UInt32.le_iff_toNat_le,
      UInt32.toNat_add, UInt32.toNat_sub]
    simp only [show 'a'.val.toNat = 97 from rfl, show 'z'.val.toNat = 122 from rfl,
      show 'A'.val.toNat = 65 from rfl] at *
    omega
  · rename_i h
    simp only [Char.isLower, Bool.and_eq_false_iff, decide_eq_false_iff_not, ge_iff_le]
    tauto

lemma eq_colon_of_toUpper {c : Char} (h : c.toUpper = ':') : c = ':' := by
  unfold Char.toUpper at h
  split at h
  · rename_i hc
    have hlow := UInt32.le_iff_toNat_le.1 hc.1
    have hhigh := UInt32.le_iff_toNat_le.1 hc.2
    have hval := congrArg (fun d => d.val.toNat) h
    simp only [UInt32.toNat_add, UInt32.toNat_sub] at hval
    simp only [show 'a'.val.toNat = 97 from rfl, show 'z'.val.toNat = 122 from rfl,
      show 'A'.val.toNat = 65 from rfl, show ':'.val.toNat = 58 from rfl] at *
    omega
  · exact h

/-- Upper case where every character but an English letter is its own. -/
def englishUpper : UpperCase where
  char c := [c.toUpper]
  ne_nil := by simp
  not_lower c d hd := by
    obtain rfl := List.mem_singleton.1 hd
    exact isLower_toUpper c
  colon c hc := eq_colon_of_toUpper (List.mem_singleton.1 hc).symm

def operatorId : Uuid := ⟨"00000000-0000-4000-8000-000000000001", by decide⟩

def eur : Code := ⟨"EUR", by decide, by decide⟩

def alice : Identity := ⟨operatorId, "alice", englishUpper.currency eur, true⟩

/-- Alice plays for fun, and the operator revokes the sessions of a player. -/
def revocation (playerId : String) : List (Machine.Label Event Oracle) :=
  .env (.provision operatorId ⟨true, true, [eur]⟩) ::
    .env (.call (.openFromToken ⟨operatorId, some "alice", some "eur", true, some "jti"⟩)) ::
    List.replicate 7 (.act 0 .ok) ++
    .env (.call (.revokeForOperatorPlayer operatorId playerId none)) :: List.replicate 3 (.act 1 .ok)

def revoked (playerId : String) : OperatorsConfig :=
  ((system englishUpper).run (Config.initial .empty) (revocation playerId)).getD (Config.initial .empty)

lemma revoked_reaches {playerId : String}
    (h : ((system englishUpper).run (Config.initial .empty) (revocation playerId)).isSome = true) :
    Rule.free.Reaches (system englishUpper) (Config.initial .empty) (revoked playerId) := by
  obtain ⟨c, hc⟩ := Option.isSome_iff_exists.1 h
  rw [revoked, hc]
  exact Rule.reaches_of_run Rule.obeys_free hc

def startsRevocation (i : ℕ) (playerId : String) : OperatorsEntry → Bool
  | .moved j (.call (.revokeForOperatorPlayer o p cur)) _ _ => j = i && o = operatorId && p = playerId && cur = none
  | _ => false

lemma exists_start {i : ℕ} {playerId : String} {log : List OperatorsEntry}
    (h : log.any (startsRevocation i playerId) = true) :
    ∃ b a, .moved i (.call (.revokeForOperatorPlayer operatorId playerId none)) b a ∈ log := by
  obtain ⟨x, hx, hstarts⟩ := List.any_eq_true.1 h
  unfold startsRevocation at hstarts
  split at hstarts
  · simp only [Bool.and_eq_true, decide_eq_true_eq] at hstarts
    obtain ⟨⟨⟨rfl, rfl⟩, rfl⟩, rfl⟩ := hstarts
    exact ⟨_, _, hx⟩
  · cases hstarts

def hasReturned (c : OperatorsConfig) (i : ℕ) : Bool :=
  match c.threads[i]? with
  | some (.live (.ret _)) => true
  | _ => false

lemma exists_out {i : ℕ} {c : OperatorsConfig} (h : hasReturned c i = true) :
    ∃ out, c.threads[i]? = some (.live (.ret out)) := by
  unfold hasReturned at h
  split at h
  · exact ⟨_, ‹_›⟩
  · cases h

end Scenario

end VaultRun.Safety.PlayMoney
