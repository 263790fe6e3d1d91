import VaultRun.Operators.Service

/-!
What the steps of the system keep of the names of the wallets, and what a call learns from its answers.
-/

namespace VaultRun.Operators

open VaultRun.Concurrency Program

def Later (σ σ' : State) : Prop := ∀ w n, σ.usernameOf w = some n → σ'.usernameOf w = some n

/-- Every wallet has a user, every user of an operator is named by a tag, and a session is on the wallet of
its own tag. -/
structure Sound (σ : State) : Prop where
  linked : ∀ w, (σ.wallets.row w).isSome → ∃ n, σ.usernameOf w = some n
  named : ∀ w n, σ.usernameOf w = some n → (∃ x : Identity, n = x.tag) ∨ startsWith n "op:" = false
  tagged : ∀ k s, σ.sessions.row k = some s → σ.usernameOf s.walletId = some s.toIdentity.tag

variable {σ σ' : State} {w k : ℕ} {n c : String} {s : Stmt} {o : Oracle} {r : operators.Reply s} {x y : Identity}

section Rows

lemma usernameOf_eq_some : σ.usernameOf w = some n ↔
    ∃ wallet user, σ.wallets.row w = some wallet ∧ σ.users.row wallet.userId = some user ∧ user.username = n := by
  simp [State.usernameOf, Option.bind_eq_some_iff]

lemma Later.refl : Later σ σ := fun _ _ h => h

lemma Later.of_rows (hw : σ'.wallets = σ.wallets) (hu : σ'.users = σ.users) : Later σ σ' := by
  intro w n h
  rwa [State.usernameOf, hw, hu]

lemma createUser_cases : σ.createUser n c = (.error .p2002, σ) ∨
    ((σ.createUser n c).1 = .ok σ.wallets.next ∧ (σ.createUser n c).2.sessions = σ.sessions ∧
      (∀ k, (σ.createUser n c).2.users.row k = if k = σ.users.next then some ⟨n⟩ else σ.users.row k) ∧
      ∀ k, (σ.createUser n c).2.wallets.row k =
        if k = σ.wallets.next then some ⟨σ.users.next, c⟩ else σ.wallets.row k) := by
  unfold State.createUser
  split
  · dsimp only
    split
    · exact .inr ⟨rfl, rfl, fun _ => rfl, fun _ => rfl⟩
    · exact .inl rfl
  · exact .inl rfl

lemma later_createUser : Later σ (σ.createUser n c).2 := by
  rcases createUser_cases (σ := σ) (n := n) (c := c) with h | ⟨-, -, hu, hw⟩
  · rw [h]
    exact .refl
  · intro w m hm
    obtain ⟨wallet, user, hwallet, huser, rfl⟩ := usernameOf_eq_some.1 hm
    have hwn : w ≠ σ.wallets.next := (σ.wallets.fresh w wallet hwallet).ne
    have hun : wallet.userId ≠ σ.users.next := (σ.users.fresh _ user huser).ne
    exact usernameOf_eq_some.2 ⟨wallet, user, by rw [hw, if_neg hwn, hwallet], by rw [hu, if_neg hun, huser], rfl⟩

lemma usernameOf_created (h : (σ.createUser n c).1 = .ok w) : (σ.createUser n c).2.usernameOf w = some n := by
  rcases createUser_cases (σ := σ) (n := n) (c := c) with hsame | ⟨hok, -, hu, hw⟩
  · rw [hsame] at h
    cases h
  · obtain rfl : σ.wallets.next = w := Except.ok.inj (hok.symm.trans h)
    exact usernameOf_eq_some.2 ⟨_, _, by rw [hw, if_pos rfl], by rw [hu, if_pos rfl], rfl⟩

lemma Sound.createUser (h : Sound σ) (hn : (∃ x : Identity, n = x.tag) ∨ startsWith n "op:" = false) :
    Sound (σ.createUser n c).2 := by
  rcases createUser_cases (σ := σ) (n := n) (c := c) with hsame | ⟨hok, hs, hu, hw⟩
  · rw [hsame]
    exact h
  · have hnew := usernameOf_created hok
    refine ⟨fun w hsome => ?_, fun w m hm => ?_, fun k s hk => ?_⟩
    · by_cases hwn : w = σ.wallets.next
      · rw [hwn]
        exact ⟨n, hnew⟩
      · rw [hw, if_neg hwn] at hsome
        obtain ⟨m, hm⟩ := h.linked w hsome
        exact ⟨m, later_createUser w m hm⟩
    · by_cases hwn : w = σ.wallets.next
      · rw [hwn, hnew] at hm
        rwa [← Option.some.inj hm]
      · obtain ⟨wallet, user, hwallet, huser, rfl⟩ := usernameOf_eq_some.1 hm
        rw [hw, if_neg hwn] at hwallet
        obtain ⟨m', hm'⟩ := h.linked w (by rw [hwallet]; rfl)
        obtain ⟨wallet', user', hwallet', huser', rfl⟩ := usernameOf_eq_some.1 hm'
        obtain rfl : wallet = wallet' := Option.some.inj (hwallet.symm.trans hwallet')
        have hun : wallet.userId ≠ σ.users.next := (σ.users.fresh _ user' huser').ne
        rw [hu, if_neg hun, huser'] at huser
        obtain rfl := Option.some.inj huser
        exact h.named w _ hm'
    · rw [hs] at hk
      exact later_createUser _ _ (h.tagged k s hk)

lemma Sound.of_rows (h : Sound σ) (hw : σ'.wallets = σ.wallets) (hu : σ'.users = σ.users)
    (hs : ∀ k s, σ'.sessions.row k = some s → ∃ s', σ.sessions.row k = some s' ∧ s'.walletId = s.walletId ∧
      s'.toIdentity = s.toIdentity) : Sound σ' := by
  have hname (w : ℕ) : σ'.usernameOf w = σ.usernameOf w := by rw [State.usernameOf, State.usernameOf, hw, hu]
  refine ⟨fun w hsome => ?_, fun w n hn => ?_, fun k s hk => ?_⟩
  · rw [hw] at hsome
    rw [hname]
    exact h.linked w hsome
  · rw [hname] at hn
    exact h.named w n hn
  · obtain ⟨s', hs', hwallet, hid⟩ := hs k s hk
    rw [hname, ← hwallet, ← hid]
    exact h.tagged k s' hs'

end Rows

section Statements

/-- A user is made for a tag, and a session for a wallet of its tag. -/
def Stmt.Lawful (σ : State) : Stmt → Prop
  | .createUser n _ => ∃ x : Identity, n = x.tag
  | .createSession row => σ.usernameOf row.walletId = some row.toIdentity.tag
  | _ => True

lemma later_perform : Later σ (perform s σ).2 := by
  cases s with
  | createUser n c => exact later_createUser
  | createSession row =>
      unfold perform State.createSession
      dsimp only
      split
      · exact .of_rows rfl rfl
      · exact .refl
  | findWalletOrThrow c n =>
      unfold perform
      dsimp only
      split <;> exact .refl
  | findLatestSession w =>
      unfold perform
      dsimp only
      split <;> exact .refl
  | revokeSessions w => exact .of_rows rfl rfl
  | _ => exact .refl

lemma Sound.createSession {row : Session} (h : Sound σ)
    (hrow : σ.usernameOf row.walletId = some row.toIdentity.tag) : Sound (σ.createSession row).2 := by
  unfold State.createSession
  split
  · refine ⟨h.linked, h.named, fun k s hk => ?_⟩
    change (if k = σ.sessions.next then some row else σ.sessions.row k) = some s at hk
    split at hk
    · rw [← Option.some.inj hk]
      exact hrow
    · exact h.tagged k s hk
  · exact h

lemma Sound.perform (h : Sound σ) (hs : s.Lawful σ) : Sound (perform s σ).2 := by
  cases s with
  | createUser n c => exact h.createUser (.inl hs)
  | createSession row => exact h.createSession hs
  | findWalletOrThrow c n =>
      unfold Operators.perform
      dsimp only
      split <;> exact h
  | findLatestSession w =>
      unfold Operators.perform
      dsimp only
      split <;> exact h
  | revokeSessions w =>
      refine h.of_rows rfl rfl fun k s hk => ?_
      obtain ⟨s', hs', heq⟩ := Option.map_eq_some_iff.1 hk
      refine ⟨s', hs', ?_⟩
      rw [← heq]
      split <;> exact ⟨rfl, rfl⟩
  | _ => exact h

lemma later_exec (h : exec o s σ = (r, σ')) : Later σ σ' := by
  rcases exec_state h with rfl | rfl
  · exact .refl
  · exact later_perform

lemma Sound.exec (hσ : Sound σ) (hs : s.Lawful σ) (h : exec o s σ = (r, σ')) : Sound σ' := by
  rcases exec_state h with rfl | rfl
  · exact hσ
  · exact hσ.perform hs

lemma guestName_plain (id : String) : startsWith (guestName id) "op:" = false := by
  rw [← Bool.not_eq_true, startsWith, List.isPrefixOf_iff_prefix, guestName, String.toList_append]
  rintro ⟨t, ht⟩
  have hhead := congrArg List.head? ht
  simp at hhead

variable {U : UpperCase} {e : Event} {p : Option (Program operators Outcome)}

lemma later_environment (h : environment U e σ = some (σ', p)) : Later σ σ' := by
  cases e with
  | provision id op =>
      obtain ⟨rfl, -⟩ := Prod.mk.inj (Option.some.inj h)
      exact .of_rows rfl rfl
  | guest id c =>
      obtain ⟨rfl, -⟩ := Prod.mk.inj (Option.some.inj h)
      exact later_createUser
  | deleteSession id =>
      obtain ⟨rfl, -⟩ := Prod.mk.inj (Option.some.inj h)
      exact .of_rows rfl rfl
  | call c =>
      unfold environment at h
      dsimp only at h
      split at h
      · obtain ⟨rfl, -⟩ := Prod.mk.inj (Option.some.inj h)
        exact .refl
      · cases h

lemma Sound.environment (hσ : Sound σ) (h : environment U e σ = some (σ', p)) : Sound σ' := by
  cases e with
  | provision id op =>
      obtain ⟨rfl, -⟩ := Prod.mk.inj (Option.some.inj h)
      exact hσ.of_rows rfl rfl fun k s hk => ⟨s, hk, rfl, rfl⟩
  | guest id c =>
      obtain ⟨rfl, -⟩ := Prod.mk.inj (Option.some.inj h)
      exact hσ.createUser (.inr (guestName_plain id))
  | deleteSession id =>
      obtain ⟨rfl, -⟩ := Prod.mk.inj (Option.some.inj h)
      refine hσ.of_rows rfl rfl fun k s hk => ⟨s, ?_, rfl, rfl⟩
      change (if k = id then none else σ.sessions.row k) = some s at hk
      split at hk
      · cases hk
      · exact hk
  | call c =>
      unfold Operators.environment at h
      dsimp only at h
      split at h
      · obtain ⟨rfl, -⟩ := Prod.mk.inj (Option.some.inj h)
        exact hσ
      · cases h

lemma call_wallet {c : Call} {mv : Move} (h : Operators.environment U (.call c) σ = some (σ', p))
    (hw : c.move = some (mv, w)) : (σ.wallets.row w).isSome := by
  unfold Operators.environment at h
  dsimp only at h
  split at h
  · rename_i hall
    rw [hw] at hall
    simpa using hall
  · cases h

end Statements

end VaultRun.Operators
