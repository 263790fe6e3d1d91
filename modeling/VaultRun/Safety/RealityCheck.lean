import VaultRun.Gateway.Service

/-!
The hard pause of a reality check: a bet that is received on a socket of the session after the check has fired is
not accepted before an acknowledgement, where the pause has reached every socket by then.
-/

namespace VaultRun.Safety.RealityCheck

open VaultRun.Concurrency VaultRun.Data VaultRun.Gateway Program

/-- What a call has learnt: of its own socket, of the socket whose turn it is, and of the one it bets on. -/
structure Grip where
  token : Option Token := none
  loaded : Option Bool := none
  restored : Bool := false
  joined : Bool := false
  next : Option ℕ := none
  socket : Option ℕ := none

def Grip.learn (m : Grip) : (s : Stmt) → gateway.Reply s → Grip
  | .setData _ t, _ => { m with token := some t }
  | .loadRealityCheckState _, .ok found => { m with loaded := some found.1 }
  | .loadRealityCheckState _, .error _ => { m with loaded := some true }
  | .restore _ _ _, _ => { m with restored := true }
  | .join _, _ => { m with joined := true }
  | .nextSocket _ _, .ok e => { m with next := e.map (·.socketId) }
  | .receive k, _ => { m with socket := some k }
  | _, _ => m

def grip (i : ℕ) (log : List GatewayEntry) : Grip := foldBy Grip.learn {} i log

def timed (p : Params) (s : ℕ) : Bool := (p.play s).rg.any (·.realityCheckIntervalSec.isSome)

def enforced (p : Params) (s : ℕ) : Bool := (p.play s).rg.any (·.enforceRealityCheck)

def Allows (p : Params) (i : ℕ) (m : Grip) : Stmt → Prop
  | .setData k _ => k = i ∧ m.token = none
  | .loadRealityCheckState s => m.token = some (.operator s) ∧ m.restored = false
  | .restore k b _ => k = i ∧ m.restored = false ∧
      ∃ s, m.token = some (.operator s) ∧ (m.loaded = some b ∨ timed p s = false)
  | .join k => k = i ∧ ∃ t, m.token = some t ∧ ((t.rg p).isSome = true → m.restored = true)
  | .check k _ => m.next = some k
  | .receive _ => m.socket = none
  | .placeBet k _ => m.socket = some k
  | _ => True

def acks (s : ℕ) : GatewayEntry → Bool
  | .answered _ (.acknowledge _) (.ok (some a)) _ _ => a.1 = s
  | _ => false

def fires (s : ℕ) : GatewayEntry → Bool
  | .answered _ (.check _ _) (.ok (some c)) _ _ => c.sessionId = s && c.decision.emitRealityCheck
  | _ => false

def Fired (s : ℕ) (log : List GatewayEntry) : Prop := Since (acks s) (fun x => fires s x = true) log

instance (s : ℕ) (log : List GatewayEntry) : Decidable (Fired s log) := inferInstanceAs (Decidable (Since _ _ _))

def Receives (s i k : ℕ) (x : GatewayEntry) : Prop :=
  ∃ b a, x = .answered i (.receive k) (.ok (some (.operator s))) b a

/-- Call `i` has received a bet on socket `k` after a check of the session fired, and there has been no
acknowledgement. -/
def InPause (s i k : ℕ) : List GatewayEntry → Prop
  | [] => False
  | x :: log => acks s x = false ∧ (Receives s i k x ∧ Fired s log ∨ InPause s i k log)

def Accepts (i : ℕ) (x : GatewayEntry) : Prop := ∃ k rest b a, x = .answered i (.placeBet k rest) (.ok true) b a

/-- A bet that is received during the pause of a session is not accepted during it. -/
def NotDodged (p : Params) (x : GatewayEntry) (log : List GatewayEntry) : Prop :=
  ∀ s i k, enforced p s = true → InPause s i k log → ¬ Accepts i x

section Programs

variable {p : Params} {i k : ℕ} {m : Grip}

def quiet : Stmt → Bool
  | .setData _ _ | .loadRealityCheckState _ | .restore _ _ _ | .join _ | .check _ _ | .receive _ | .placeBet _ _ => false
  | _ => true

lemma allows_of_quiet {s : Stmt} (h : quiet s = true) : Allows p i m s := by
  cases s <;> trivial

lemma follows_quiet {α : Type} {q : Program gateway α} (h : q.Uses fun s => quiet s = true) :
    Follows Grip.learn (Allows p i) (fun _ _ => True) q m :=
  follows_of_uses h fun _ _ => allows_of_quiet

lemma disconnectRevokedSockets_quiet {n : ℕ} : (GameGateway.disconnectRevokedSockets n).Uses fun s => quiet s = true := by
  refine uses_bind.2 ⟨⟨rfl, by simp⟩, fun bySession _ => ?_⟩
  dsimp only
  split
  · trivial
  · exact uses_bind.2 ⟨⟨rfl, by simp⟩, fun _ _ => ⟨rfl, by simp⟩⟩

lemma notify_quiet {d : RgDecision} : (GameGateway.notify k d).Uses fun s => quiet s = true :=
  uses_ite.2 ⟨fun _ => ⟨rfl, by simp⟩, fun _ => trivial⟩

lemma remind_quiet {s : ℕ} {d : RgDecision} : (GameGateway.remind k s d).Uses fun s => quiet s = true := by
  refine uses_bind.2 ⟨uses_catching.2 ⟨⟨rfl, by simp⟩, by simp⟩, fun _ _ => ?_⟩
  refine uses_bind.2 ⟨⟨rfl, by simp⟩, fun _ _ => uses_catching.2 ⟨?_, by simp⟩⟩
  exact uses_ite.2 ⟨fun _ => ⟨rfl, by simp⟩, fun _ => ⟨rfl, by simp⟩⟩

lemma follows_sweepSocket {now : ℕ} (hm : m.next = some k) :
    Follows Grip.learn (Allows p i) (fun _ _ => True) (GameGateway.sweepSocket k now) m := by
  refine follows_await_bind hm (fun c => ?_) fun _ => trivial
  cases c with
  | none => trivial
  | some c =>
      apply follows_quiet
      refine uses_bind.2 ⟨notify_quiet, fun _ _ => ?_⟩
      exact uses_ite.2 ⟨fun _ => remind_quiet, fun _ => trivial⟩

lemma follows_sweepFrom {n now turns : ℕ} {after : Option ℕ} :
    Follows Grip.learn (Allows p i) (fun _ _ => True) (GameGateway.sweepFrom n now turns after) m := by
  induction turns generalizing after m with
  | zero => trivial
  | succ turns ih =>
      refine follows_await_bind trivial (fun e => ?_) fun _ => trivial
      cases e with
      | none => trivial
      | some e =>
          refine follows_bind ((follows_sweepSocket rfl).mono fun r m _ => ?_)
          cases r with
          | ok u => exact ih
          | error e => trivial

lemma follows_runRgSweep {n turns : ℕ} :
    Follows Grip.learn (Allows p i) (fun _ _ => True) (GameGateway.runRgSweep n turns) m := by
  refine follows_await_bind trivial (fun now => ?_) fun _ => trivial
  cases now with
  | none => trivial
  | some now =>
      refine follows_bind (follows_attempt (follows_bind ((follows_quiet disconnectRevokedSockets_quiet).mono ?_)))
      intro r m _
      cases r with
      | error e => exact follows_await (I := gateway) trivial fun _ => trivial
      | ok u =>
          refine follows_sweepFrom.mono fun r m _ => ?_
          match r with
          | .ok false => trivial
          | .ok true | .error _ => exact follows_await (I := gateway) trivial fun _ => trivial

lemma follows_join {t : Token} (ht : m.token = some t) (hr : (t.rg p).isSome = true → m.restored = true) :
    Follows Grip.learn (Allows p i) (fun _ _ => True) (Gateway.await (.join i)) m :=
  follows_await (I := gateway) ⟨rfl, t, ht, hr⟩ fun _ => trivial

lemma follows_restore {s : ℕ} {b : Bool} {due : Option ℕ} (ht : m.token = some (.operator s))
    (hm : m.restored = false) (hb : m.loaded = some b ∨ timed p s = false) :
    Follows Grip.learn (Allows p i) (fun _ _ => True)
      (do Gateway.await (.restore i b due); Gateway.await (.join i)) m :=
  follows_await_bind ⟨rfl, hm, s, ht, hb⟩ (fun _ => follows_join ht fun _ => rfl) fun _ => trivial

lemma follows_handleConnection {t : Token} :
    Follows Grip.learn (Allows p i) (fun _ _ => True) (GameGateway.handleConnection p i t) {} := by
  cases t with
  | guest u =>
      refine follows_await_bind ⟨rfl, rfl⟩ (fun _ => ?_) fun _ => trivial
      exact follows_join rfl fun h => by cases h
  | operator s =>
      have hlive : Follows Grip.learn (Allows p i) (fun _ m => m = {})
          (catching (Gateway.await (.isLive s)) fun _ => pure false) {} := by
        refine follows_catching (follows_await (I := gateway) trivial fun r => ?_)
        cases r <;> rfl
      refine follows_bind (hlive.mono fun r m hm => ?_)
      subst hm
      match r with
      | .error e => trivial
      | .ok false => trivial
      | .ok true =>
          refine follows_await_bind ⟨rfl, rfl⟩ (fun _ => ?_) fun _ => trivial
          cases hrg : (p.play s).rg with
          | none => exact follows_join rfl fun h => by simp [Token.rg, hrg] at h
          | some rg =>
              by_cases hi : rg.realityCheckIntervalSec.isSome = true
              · dsimp only
                rw [if_pos hi]
                refine follows_bind (follows_catching (follows_await (I := gateway) ⟨rfl, rfl⟩ fun r => ?_))
                cases r with
                | ok found => exact follows_restore rfl rfl (.inl rfl)
                | error e => exact follows_restore rfl rfl (.inl rfl)
              · dsimp only
                rw [if_neg hi]
                exact follows_restore rfl rfl (.inr (by simpa [timed, hrg] using hi))

lemma follows_onPlaceBet {rest : Bool} :
    Follows Grip.learn (Allows p i) (fun _ _ => True) (GameGateway.onPlaceBet k rest) {} := by
  refine follows_await_bind rfl (fun t => ?_) fun _ => trivial
  match t with
  | none => trivial
  | some (.guest u) => exact follows_await (I := gateway) rfl fun _ => trivial
  | some (.operator s) =>
      refine follows_bind (follows_catching (follows_await (I := gateway) trivial fun r => ?_))
      match r with
      | .ok false => trivial
      | .ok true | .error _ => exact follows_await (I := gateway) rfl fun _ => trivial

lemma follows_onRealityCheckAck :
    Follows Grip.learn (Allows p i) (fun _ _ => True) (GameGateway.onRealityCheckAck k) m := by
  apply follows_quiet
  refine uses_bind.2 ⟨⟨rfl, by simp⟩, fun a _ => ?_⟩
  match a with
  | none => trivial
  | some (s, due) => exact uses_catching.2 ⟨⟨rfl, by simp⟩, by simp⟩

lemma follows_call {e : Event} {σ σ' : State} {q : Program gateway Outcome}
    (h : environment p e i σ = some (σ', some q)) : Follows Grip.learn (Allows p i) (fun _ _ => True) q {} := by
  cases e with
  | connect n t =>
      simp only [environment] at h
      split at h
      · obtain rfl := Option.some.inj (Prod.mk.inj (Option.some.inj h)).2
        exact follows_map follows_handleConnection
      · cases h
  | drop | revoke | pass => cases (Prod.mk.inj (Option.some.inj h)).2
  | sweep n turns =>
      obtain rfl := Option.some.inj (Prod.mk.inj (Option.some.inj h)).2
      exact follows_map follows_runRgSweep
  | placeBet j rest =>
      obtain rfl := Option.some.inj (Prod.mk.inj (Option.some.inj h)).2
      exact follows_map follows_onPlaceBet
  | realityCheckAck j =>
      obtain rfl := Option.some.inj (Prod.mk.inj (Option.some.inj h)).2
      exact follows_map follows_onRealityCheckAck

end Programs

section Steps

variable {p : Params} {σ σ' : State} {o : Oracle} {s : Stmt} {r : gateway.Reply s} {k : ℕ}

def tokenAfter (k : ℕ) (x : Socket) : Stmt → Option Token
  | .setData j t => if k = j then some t else x.token
  | _ => x.token

def pendingAfter (p : Params) (k : ℕ) (x : Socket) : Stmt → Option Bool
  | .check j now =>
      if k = j ∧ x.connected = true then
        ((x.rgState p).map fun c => (rgEvaluate c.2 now).nextPending).or x.rgPending
      else x.rgPending
  | .restore j pending _ => if k = j then some pending else x.rgPending
  | .acknowledge j => if k = j ∧ x.connected = true ∧ (x.rg p).isSome = true then some false else x.rgPending
  | _ => x.rgPending

def Turns (τ : ℕ → Socket → Option Token) (π : ℕ → Socket → Option Bool) (σ σ' : State) : Prop :=
  ∃ g : ℕ → Socket → Socket, (∀ k, σ'.sockets.row k = (σ.sockets.row k).map (g k)) ∧
    ∀ k x, σ.sockets.row k = some x →
      ((g k x).connected = true → x.connected = true) ∧ (g k x).token = τ k x ∧ (g k x).rgPending = π k x

def Drops (σ σ' : State) : Prop :=
  Turns (fun _ x => x.token) (fun _ x => x.rgPending) σ σ' ∧
    ∀ n e, e ∈ (σ'.nodes n).userSockets → e ∈ (σ.nodes n).userSockets

lemma turns_of_sockets {τ : ℕ → Socket → Option Token} {π : ℕ → Socket → Option Bool}
    (h : σ'.sockets = σ.sockets)
    (hx : ∀ k x, σ.sockets.row k = some x → τ k x = x.token ∧ π k x = x.rgPending) : Turns τ π σ σ' :=
  ⟨fun _ => id, fun k => by simp [h], fun k x h => ⟨id, (hx k x h).1.symm, (hx k x h).2.symm⟩⟩

lemma turns_setSocket {τ : ℕ → Socket → Option Token} {π : ℕ → Socket → Option Bool} {j : ℕ} {f : Socket → Socket}
    (hself : ∀ x, σ.sockets.row j = some x →
      ((f x).connected = true → x.connected = true) ∧ (f x).token = τ j x ∧ (f x).rgPending = π j x)
    (hother : ∀ k x, k ≠ j → τ k x = x.token ∧ π k x = x.rgPending) : Turns τ π σ (σ.setSocket j f) := by
  refine ⟨fun k x => if k = j then f x else x, fun k => ?_, fun k x hx => ?_⟩
  · simp [State.setSocket]
  · by_cases hk : k = j
    · subst hk
      simpa using hself x hx
    · obtain ⟨ht, hp⟩ := hother k x hk
      simp [hk, ht, hp]

lemma drops_refl : Drops σ σ := ⟨turns_of_sockets rfl fun _ _ _ => ⟨rfl, rfl⟩, fun _ _ he => he⟩

lemma Drops.trans {σ₁ : State} (h : Drops σ σ₁) (h' : Drops σ₁ σ') : Drops σ σ' := by
  obtain ⟨⟨g, hg, hs⟩, hu⟩ := h
  obtain ⟨⟨g', hg', hs'⟩, hu'⟩ := h'
  refine ⟨⟨fun k x => g' k (g k x), fun k => ?_, fun k x hx => ?_⟩, fun n e he => hu n e (hu' n e he)⟩
  · rw [hg', hg, Option.map_map]
    rfl
  · have h1 := hs k x hx
    have h2 := hs' k (g k x) (by rw [hg, hx]; rfl)
    exact ⟨h1.1 ∘ h2.1, h2.2.1.trans h1.2.1, h2.2.2.trans h1.2.2⟩

lemma drops_disconnect : Drops σ (σ.disconnect p k) := by
  unfold State.disconnect
  split
  · split
    · constructor
      · exact turns_setSocket (σ := σ) (fun x _ => ⟨fun h => by simp at h, rfl, rfl⟩) fun _ _ _ => ⟨rfl, rfl⟩
      · intro n e he
        simp only [State.setNode, State.setSocket] at he
        split at he
        · exact (List.mem_filter.1 he).1
        · exact he
    · exact drops_refl
  · exact drops_refl

lemma drops_disconnectAll {ks : List ℕ} : Drops σ (State.disconnectAll p ks σ) := by
  induction ks generalizing σ with
  | nil => exact drops_refl
  | cons k ks ih => exact drops_disconnect.trans ih

lemma mem_setUserSocket {v : Node} {u : ℕ} {e : UserSocket} (h : e ∈ (v.setUserSocket u k).userSockets) :
    e.socketId = k ∨ e ∈ v.userSockets := by
  unfold Node.setUserSocket at h
  split at h
  · obtain ⟨e', he', rfl⟩ := List.mem_map.1 h
    by_cases hu : e'.userId = u
    · exact .inl (by simp [hu])
    · exact .inr (by simpa [hu] using he')
  · rcases List.mem_append.1 h with h | h
    · exact .inr h
    · exact .inl (by rw [List.mem_singleton.1 h])

lemma join_drops : Turns (fun _ x => x.token) (fun _ x => x.rgPending) σ (σ.join p k) ∧
    ∀ n e, e ∈ ((σ.join p k).nodes n).userSockets → e.socketId = k ∨ e ∈ (σ.nodes n).userSockets := by
  have hstay : Turns (fun _ x => x.token) (fun _ x => x.rgPending) σ σ ∧
      ∀ n e, e ∈ (σ.nodes n).userSockets → e.socketId = k ∨ e ∈ (σ.nodes n).userSockets :=
    ⟨drops_refl.1, fun _ _ => .inr⟩
  have hset (σ₁ : State) (h : Drops σ σ₁) (n u : ℕ) :
      Turns (fun _ x => x.token) (fun _ x => x.rgPending) σ (σ₁.setNode n (·.setUserSocket u k)) ∧
        ∀ m e, e ∈ ((σ₁.setNode n (·.setUserSocket u k)).nodes m).userSockets →
          e.socketId = k ∨ e ∈ (σ.nodes m).userSockets := by
    refine ⟨h.1, fun m e he => ?_⟩
    simp only [State.setNode] at he
    split at he
    · exact (mem_setUserSocket he).imp_right (h.2 m e)
    · exact .inr (h.2 m e he)
  unfold State.join
  split
  · split
    · dsimp only
      split
      · split
        · exact hset _ drops_refl _ _
        · exact hset _ drops_disconnect _ _
      · exact hset _ drops_refl _ _
    · exact hstay
  · exact hstay

lemma turns_check {j now : ℕ} : Turns (fun _ x => x.token) (fun k x => pendingAfter p k x (.check j now)) σ
    (σ.check p j now).2 := by
  unfold State.check
  split
  · rename_i s st hst
    obtain ⟨x, hx, hst⟩ := Option.bind_eq_some_iff.1 hst
    obtain ⟨hrow, hc⟩ := Option.filter_eq_some_iff.1 hx
    refine turns_setSocket (fun y hy => ?_) fun k y hk => ⟨rfl, if_neg fun h => hk h.1⟩
    obtain rfl : x = y := Option.some.inj (hrow.symm.trans hy)
    exact ⟨id, rfl, by simp [pendingAfter, hc, hst, Socket.decided]⟩
  · rename_i hnone
    refine turns_of_sockets rfl fun k x hx => ⟨rfl, ?_⟩
    by_cases h : k = j ∧ x.connected = true
    · obtain ⟨rfl, hc⟩ := h
      have hst : x.rgState p = none := by simpa [hx, Option.filter, hc] using hnone
      simp [pendingAfter, hst]
    · exact if_neg h

lemma turns_acknowledge {j : ℕ} : Turns (fun _ x => x.token) (fun k x => pendingAfter p k x (.acknowledge j)) σ
    (σ.acknowledge p j).2 := by
  unfold State.acknowledge
  split
  · rename_i s rg hrg
    obtain ⟨t, ht, hrg⟩ := Option.bind_eq_some_iff.1 hrg
    obtain ⟨x, hx, ht⟩ := Option.bind_eq_some_iff.1 ht
    obtain ⟨hrow, hc⟩ := Option.filter_eq_some_iff.1 hx
    refine turns_setSocket (fun y hy => ?_) fun k y hk => ⟨rfl, if_neg fun h => hk h.1⟩
    obtain rfl : x = y := Option.some.inj (hrow.symm.trans hy)
    exact ⟨id, rfl, by simp [pendingAfter, hc, Socket.rg, ht, hrg]⟩
  · rename_i hnone
    refine turns_of_sockets rfl fun k x hx => ⟨rfl, ?_⟩
    by_cases h : k = j ∧ x.connected = true ∧ (x.rg p).isSome = true
    · obtain ⟨rfl, hc, hrg⟩ := h
      have hnil : x.rg p = none := by simpa [State.tokenOf, hx, Option.filter, hc, Socket.rg] using hnone
      rw [hnil] at hrg
      cases hrg
    · exact if_neg h

lemma sockets_perform : Turns (fun k x => tokenAfter k x s) (fun k x => pendingAfter p k x s) σ (perform p s σ).2 ∧
    ∀ n e, e ∈ ((perform p s σ).2.nodes n).userSockets → s = .join e.socketId ∨ e ∈ (σ.nodes n).userSockets := by
  have hstay {σ₁ : State} (hs : σ₁.sockets = σ.sockets)
      (hn : ∀ n, (σ₁.nodes n).userSockets = (σ.nodes n).userSockets) :
      Turns (fun _ x => x.token) (fun _ x => x.rgPending) σ σ₁ ∧
        ∀ n e, e ∈ (σ₁.nodes n).userSockets → s = .join e.socketId ∨ e ∈ (σ.nodes n).userSockets :=
    ⟨turns_of_sockets hs fun _ _ _ => ⟨rfl, rfl⟩, fun n e he => .inr (hn n ▸ he)⟩
  have hnode (n : ℕ) (b : Bool) (m : ℕ) :
      ((σ.setNode n ({ · with rgSweeping := b })).nodes m).userSockets = (σ.nodes m).userSockets := by
    simp only [State.setNode]
    split <;> rfl
  cases s with
  | beginSweep n =>
      unfold perform
      dsimp only
      split
      · exact hstay rfl fun _ => rfl
      · exact hstay rfl (hnode n true)
  | endSweep n => exact hstay rfl (hnode n false)
  | disconnect ks => exact ⟨drops_disconnectAll.1, fun n e he => .inr (drops_disconnectAll.2 n e he)⟩
  | join k =>
      refine ⟨join_drops.1, fun n e he => ?_⟩
      rcases join_drops.2 n e he with rfl | he
      · exact .inl rfl
      · exact .inr he
  | check k now =>
      refine ⟨turns_check, fun n e he => .inr ?_⟩
      unfold perform State.check at he
      dsimp only at he
      split at he <;> exact he
  | acknowledge k =>
      refine ⟨turns_acknowledge, fun n e he => .inr ?_⟩
      unfold perform State.acknowledge at he
      dsimp only at he
      split at he <;> exact he
  | setData k t =>
      refine ⟨turns_setSocket (fun x _ => ⟨id, (if_pos rfl).symm, rfl⟩) fun j x hj => ⟨if_neg hj, rfl⟩, fun n e he => .inr he⟩
  | restore k b due =>
      refine ⟨turns_setSocket (fun x _ => ⟨id, rfl, (if_pos rfl).symm⟩) fun j x hj => ⟨rfl, if_neg hj⟩, fun n e he => .inr he⟩
  | bySession | nextSocket | emit | receive | placeBet | isLive | findNotLive | sessionAccounting
  | markRealityCheckPending | ackRealityCheck | loadRealityCheckState => exact hstay rfl fun _ => rfl

lemma after_of_not_inMemory {x : Socket} (h : s.inMemory = false) :
    tokenAfter k x s = x.token ∧ pendingAfter p k x s = x.rgPending := by
  cases s <;> first | exact ⟨rfl, rfl⟩ | cases h

lemma sockets_exec (h : exec p o s σ = some (r, σ')) :
    Turns (fun k x => tokenAfter k x s) (fun k x => pendingAfter p k x s) σ σ' ∧
      ∀ n e, e ∈ (σ'.nodes n).userSockets → s = .join e.socketId ∨ e ∈ (σ.nodes n).userSockets := by
  cases o with
  | ok =>
      obtain rfl := (congrArg Prod.snd (Option.some.inj h)).symm
      exact sockets_perform
  | lost =>
      simp only [exec] at h
      split at h
      · cases h
      · rename_i hm
        obtain rfl := (Prod.mk.inj (Option.some.inj h)).2
        exact ⟨turns_of_sockets rfl fun k x _ => after_of_not_inMemory (Bool.eq_false_iff.2 hm), fun n e he => .inr he⟩
  | unacked =>
      simp only [exec] at h
      split at h
      · cases h
      · obtain rfl := (Prod.mk.inj (Option.some.inj h)).2
        exact sockets_perform

lemma perform_of_ok {a : s.Result} (h : exec p o s σ = some (.ok a, σ')) : perform p s σ = (.ok a, σ') := by
  cases o with
  | ok => exact Option.some.inj h
  | lost | unacked =>
      simp only [exec] at h
      split at h
      · cases h
      · cases (Prod.mk.inj (Option.some.inj h)).1

end Steps

section Runs

variable {p : Params} {w : GatewayWorld} {o : Oracle} {st : Stmt} {σ' : State} {r : gateway.Reply st}
  {i j k n s : ℕ} {x : GatewayEntry} {log : List GatewayEntry} {v v' : Socket}

@[reducible] def checksAt : Stmt → Option (ℕ × ℕ)
  | .check k now => some (k, now)
  | _ => none

@[reducible] def loads : Stmt → Option ℕ
  | .loadRealityCheckState s => some s
  | _ => none

@[reducible] def receivesOn : Stmt → Option ℕ
  | .receive k => some k
  | _ => none

/-- A check fires where no other socket of its session is connected, a connection reads the state of the session
where no check that has fired is missing in its row, and a bet is not received on a socket before the pause has
been restored there. -/
@[reducible] def settled (p : Params) : GatewayRule where
  act _ _ st w :=
    (∀ q ∈ checksAt st, ∀ c ∈ (w.state.check p q.1 q.2).1, c.decision.emitRealityCheck → enforced p c.sessionId →
      (w.state.sockets.findMany fun j v =>
        v.connected && v.token = some (.operator c.sessionId) && j ≠ q.1).isEmpty) ∧
    (∀ s ∈ loads st, enforced p s → Fired s w.log → (w.state.sessions s).realityCheckPendingAt.isSome) ∧
    ∀ k ∈ receivesOn st, ∀ v ∈ w.state.sockets.row k, v.connected → (v.rg p).isSome → v.rgPending.isSome
  kill _ _ := True
  env _ _ _ := True

/-- What a socket of a session that is paused shows: before it is restored nothing, and no value to restore but the
pause, and from then on the pause. -/
structure Paused (m : Grip) (v : Socket) : Prop where
  waiting : m.restored = false → v.rgPending = none ∧ m.loaded ≠ some false
  ready : m.restored = true → v.rgPending = some true

structure Inv (p : Params) (w : GatewayWorld) : Prop where
  token : ∀ k v, w.state.sockets.row k = some v → v.token = (grip k w.log).token
  blank : ∀ k v, w.state.sockets.row k = some v → v.token = none → v.rgPending = none
  started : ∀ i, (grip i w.log).token = none →
    (grip i w.log).loaded = none ∧ (grip i w.log).restored = false ∧ (grip i w.log).joined = false
  whole : ∀ i t, (grip i w.log).joined = true → (grip i w.log).token = some t → (t.rg p).isSome = true →
    (grip i w.log).restored = true
  users : ∀ n e, e ∈ (w.state.nodes n).userSockets → (grip e.socketId w.log).joined = true
  next : ∀ i k, (grip i w.log).next = some k → (grip k w.log).joined = true
  due : ∀ s, Fired s w.log → timed p s = true
  paused : ∀ s k v, enforced p s = true → Fired s w.log → w.state.sockets.row k = some v → v.connected = true →
    v.token = some (.operator s) → Paused (grip k w.log) v
  held : ∀ s i k, enforced p s = true → InPause s i k w.log → (grip i w.log).socket = some k ∧
    (grip k w.log).restored = true ∧
      ∃ v, w.state.sockets.row k = some v ∧ v.token = some (.operator s) ∧ v.rgPending = some true

lemma grip_answered : grip j (w.answer i st r σ').log =
    if i = j then (grip j w.log).learn st r else grip j w.log := by
  split
  · rename_i h
    subst h
    exact foldBy_self
  · rename_i h
    exact foldBy_answered h

lemma token_learn {m : Grip} : (m.learn st r).token = match st with
    | .setData _ t => some t
    | _ => m.token := by
  cases st <;> first | rfl | (cases r <;> rfl)

lemma restored_learn {m : Grip} : (m.learn st r).restored = match st with
    | .restore _ _ _ => true
    | _ => m.restored := by
  cases st <;> first | rfl | (cases r <;> rfl)

lemma joined_learn {m : Grip} : (m.learn st r).joined = match st with
    | .join _ => true
    | _ => m.joined := by
  cases st <;> first | rfl | (cases r <;> rfl)

lemma socket_learn {m : Grip} : (m.learn st r).socket = match st with
    | .receive k => some k
    | _ => m.socket := by
  cases st <;> first | rfl | (cases r <;> rfl)

lemma loaded_learn {m : Grip} (h : ∀ s, st ≠ .loadRealityCheckState s) : (m.learn st r).loaded = m.loaded := by
  cases st with
  | loadRealityCheckState s => exact (h s rfl).elim
  | _ => first | rfl | (cases r <;> rfl)

lemma loaded_load {m : Grip} {r : gateway.Reply (.loadRealityCheckState s)}
    (he : exec p o (.loadRealityCheckState s) w.state = some (r, σ'))
    (hp : (w.state.sessions s).realityCheckPendingAt.isSome = true) :
    (m.learn (.loadRealityCheckState s) r).loaded = some true := by
  cases r with
  | error e => rfl
  | ok found =>
      obtain rfl := Except.ok.inj (congrArg Prod.fst (perform_of_ok he))
      simp [Grip.learn, hp]

lemma next_learn {m : Grip} (he : exec p o st w.state = some (r, σ')) (h : (m.learn st r).next = some k) :
    m.next = some k ∨ ∃ n e, e ∈ (w.state.nodes n).userSockets ∧ e.socketId = k := by
  cases st with
  | nextSocket n after =>
      cases r with
      | error e => exact .inl h
      | ok e =>
          obtain rfl := Except.ok.inj (congrArg Prod.fst (perform_of_ok he))
          obtain ⟨e, he, rfl⟩ := Option.map_eq_some_iff.1 h
          exact .inr ⟨n, e, List.mem_of_find?_eq_some he, rfl⟩
  | _ => first | exact .inl h | (cases r <;> exact .inl h)

lemma joined_cons (h : (grip j w.log).joined = true) : (grip j (w.answer i st r σ').log).joined = true := by
  rw [grip_answered]
  split
  · rw [joined_learn]
    split <;> first | rfl | exact h
  · exact h

lemma restored_cons (h : (grip j w.log).restored = true) : (grip j (w.answer i st r σ').log).restored = true := by
  rw [grip_answered]
  split
  · rw [restored_learn]
    split <;> first | rfl | exact h
  · exact h

lemma row_before (he : exec p o st w.state = some (r, σ')) (h : σ'.sockets.row k = some v') :
    ∃ v, w.state.sockets.row k = some v ∧ (v'.connected = true → v.connected = true) ∧
      v'.token = tokenAfter k v st ∧ v'.rgPending = pendingAfter p k v st := by
  obtain ⟨⟨g, hg, hs⟩, -⟩ := sockets_exec he
  rw [hg] at h
  obtain ⟨v, hv, rfl⟩ := Option.map_eq_some_iff.1 h
  exact ⟨v, hv, hs k v hv⟩

lemma check_some {σ : State} {now : ℕ} {c : Gateway.Check} (h : (σ.check p k now).1 = some c) :
    ∃ v a, σ.sockets.row k = some v ∧ v.connected = true ∧ v.rgState p = some (c.sessionId, a) ∧
      c.decision = rgEvaluate a now := by
  unfold State.check at h
  split at h
  · rename_i s a ha
    obtain ⟨v, hv, ha⟩ := Option.bind_eq_some_iff.1 ha
    obtain ⟨hrow, hc⟩ := Option.filter_eq_some_iff.1 hv
    obtain rfl := Option.some.inj h
    exact ⟨v, a, hrow, hc, ha, rfl⟩
  · cases h

lemma fires_check (he : exec p o st w.state = some (r, σ')) (h : fires s (.answered i st r w.state σ') = true) :
    ∃ k now c, st = .check k now ∧ (w.state.check p k now).1 = some c ∧ c.sessionId = s ∧
      c.decision.emitRealityCheck = true := by
  unfold fires at h
  split at h
  · rename_i heq
    obtain ⟨-, rfl, hr, -, -⟩ := Entry.answered.inj heq
    obtain rfl := eq_of_heq hr
    rename_i k now c _ _
    have hp := Except.ok.inj (congrArg Prod.fst (perform_of_ok he))
    simp only [Bool.and_eq_true, decide_eq_true_eq] at h
    exact ⟨k, now, c, rfl, hp, h⟩
  · cases h

lemma rg_operator {c : EffectiveRg} (h : v.rg p = some (s, c)) : v.token = some (.operator s) ∧ (p.play s).rg = some c := by
  obtain ⟨t, ht, hc⟩ := Option.bind_eq_some_iff.1 h
  cases t with
  | guest u => cases hc
  | operator s' =>
      obtain ⟨c', hc', heq⟩ := Option.map_eq_some_iff.1 hc
      cases heq
      exact ⟨ht, hc'⟩

lemma rgState_operator {a : RgSocketState} (h : v.rgState p = some (s, a)) :
    v.token = some (.operator s) ∧ (p.play s).rg = some a.rg ∧ a.rgPending = decide (v.rgPending = some true) := by
  obtain ⟨c, hc, heq⟩ := Option.map_eq_some_iff.1 h
  obtain ⟨s', rg⟩ := c
  cases heq
  exact ⟨(rg_operator hc).1, (rg_operator hc).2, rfl⟩

lemma interval_of_emit {a : RgSocketState} {now : ℕ} (h : (rgEvaluate a now).emitRealityCheck = true) :
    a.rg.realityCheckIntervalSec.isSome = true := by
  unfold rgEvaluate at h
  dsimp only at h
  split at h
  · cases h
  · split at h
    · rename_i hi _
      rw [hi]
      rfl
    · cases h

lemma nextPending_of_pending {a : RgSocketState} {now : ℕ} (h : a.rgPending = true) :
    (rgEvaluate a now).nextPending = true := by
  unfold rgEvaluate
  dsimp only
  split
  · exact h
  · split
    · rename_i interval due _ _
      by_cases hd : due ≤ now <;> simp [hd, h]
    · exact h

lemma nextPending_of_emit {a : RgSocketState} {now : ℕ} (h : (rgEvaluate a now).emitRealityCheck = true)
    (he : a.rg.enforceRealityCheck = true) : (rgEvaluate a now).nextPending = true := by
  revert h
  unfold rgEvaluate
  dsimp only
  split
  · nofun
  · split
    · rename_i interval due _ _
      by_cases hd : due ≤ now <;> simp [hd]
    · nofun

lemma enforced_of_rg {c : EffectiveRg} (h : (p.play s).rg = some c) : enforced p s = c.enforceRealityCheck := by
  simp [enforced, h]

lemma reply_of_inMemory {σ : State} (he : exec p o st σ = some (r, σ')) (hm : st.inMemory = true) :
    perform p st σ = (r, σ') := by
  cases o with
  | ok => exact Option.some.inj he
  | lost | unacked => simp [exec, hm] at he

lemma acks_of_acknowledge {r : gateway.Reply (.acknowledge k)}
    (he : exec p o (.acknowledge k) w.state = some (r, σ')) (hrow : w.state.sockets.row k = some v)
    (hc : v.connected = true) (ht : v.token = some (.operator s)) (hrg : (v.rg p).isSome = true) :
    acks s (.answered i (.acknowledge k) r w.state σ') = true := by
  obtain rfl := (congrArg Prod.fst (reply_of_inMemory he rfl)).symm
  obtain ⟨⟨s', rg⟩, hrg⟩ := Option.isSome_iff_exists.1 hrg
  obtain ⟨ht', -⟩ := rg_operator hrg
  obtain rfl : s' = s := Token.operator.inj (Option.some.inj (ht'.symm.trans ht))
  have htok : (w.state.tokenOf k).bind (·.rg p) = some (s', rg) := by
    have : w.state.tokenOf k = v.token := by simp [State.tokenOf, hrow, Option.filter, hc]
    rw [this]
    exact hrg
  simp [acks, perform, State.acknowledge, htok]

lemma rg_of_enforced (ht : v.token = some (.operator s)) (hs : enforced p s = true) :
    ∃ c, v.rg p = some (s, c) ∧ c.enforceRealityCheck = true := by
  obtain ⟨c, hc, he⟩ := Option.any_eq_true _ _ |>.1 hs
  exact ⟨c, by simp [Socket.rg, ht, Token.rg, hc], he⟩

lemma pending_stays (he : exec p o st w.state = some (r, σ')) (hφ : Allows p i (grip i w.log) st)
    (hs : enforced p s = true) (hrow : w.state.sockets.row k = some v) (ht : v.token = some (.operator s))
    (hack : acks s (.answered i st r w.state σ') = false) (hready : (grip k w.log).restored = true)
    (hp : v.rgPending = some true) : pendingAfter p k v st = some true := by
  obtain ⟨c, hrg, -⟩ := rg_of_enforced ht hs
  cases st with
  | check j now =>
      simp only [pendingAfter]
      split
      · simp [Socket.rgState, hrg, nextPending_of_pending, hp]
      · exact hp
  | restore j b due =>
      obtain ⟨rfl, hnot, -⟩ := hφ
      by_cases hk : k = j
      · subst hk
        cases hnot.symm.trans hready
      · exact (if_neg hk).trans hp
  | acknowledge j =>
      simp only [pendingAfter]
      split
      · rename_i h
        obtain ⟨rfl, hc, hrg⟩ := h
        cases hack.symm.trans (acks_of_acknowledge he hrow hc ht hrg)
      · exact hp
  | _ => exact hp

lemma tokenOf_some {σ : State} {t : Token} (h : σ.tokenOf k = some t) :
    ∃ v, σ.sockets.row k = some v ∧ v.connected = true ∧ v.token = some t := by
  obtain ⟨v, hv, ht⟩ := Option.bind_eq_some_iff.1 h
  obtain ⟨hrow, hc⟩ := Option.filter_eq_some_iff.1 hv
  exact ⟨v, hrow, hc, ht⟩

variable (hw : Inv p w) (hφ : Allows p i (grip i w.log) st)
include hw hφ

lemma Inv.token_answer (he : exec p o st w.state = some (r, σ')) (h : σ'.sockets.row k = some v') :
    v'.token = (grip k (w.answer i st r σ').log).token := by
  obtain ⟨v, hv, -, ht, -⟩ := row_before he h
  rw [ht, grip_answered]
  have hsame := hw.token k v hv
  cases st with
  | setData j t =>
      obtain ⟨rfl, -⟩ := hφ
      by_cases hk : k = j
      · subst hk
        simp [tokenAfter, token_learn]
      · simp [tokenAfter, hk, Ne.symm hk, hsame]
  | _ =>
      simp only [tokenAfter]
      split
      · rw [token_learn]
        exact hsame
      · exact hsame

lemma Inv.blank_answer (he : exec p o st w.state = some (r, σ')) (h : σ'.sockets.row k = some v')
    (ht : v'.token = none) : v'.rgPending = none := by
  obtain ⟨v, hv, -, ht', hp⟩ := row_before he h
  rw [ht'] at ht
  have hnone : v.token = none := by
    cases st with
    | setData j t =>
        simp only [tokenAfter] at ht
        split at ht
        · cases ht
        · exact ht
    | _ => exact ht
  rw [hp]
  have hblank := hw.blank k v hv hnone
  cases st with
  | check j now => simp [pendingAfter, Socket.rgState, Socket.rg, hnone, hblank]
  | acknowledge j => simp [pendingAfter, Socket.rg, hnone, hblank]
  | restore j b due =>
      obtain ⟨rfl, -, s, ht, -⟩ := hφ
      by_cases hk : k = j
      · subst hk
        rw [hw.token k v hv, ht] at hnone
        cases hnone
      · simp [pendingAfter, hk, hblank]
  | _ => exact hblank

lemma Inv.started_answer (h : (grip j (w.answer i st r σ').log).token = none) :
    (grip j (w.answer i st r σ').log).loaded = none ∧ (grip j (w.answer i st r σ').log).restored = false ∧
      (grip j (w.answer i st r σ').log).joined = false := by
  rw [grip_answered] at h ⊢
  split at h
  · rename_i hij
    subst hij
    rw [if_pos rfl]
    have hnone : (grip i w.log).token = none := by
      rw [token_learn] at h
      split at h
      · cases h
      · exact h
    obtain ⟨hl, hr, hj⟩ := hw.started i hnone
    cases st with
    | loadRealityCheckState s => cases hφ.1.symm.trans hnone
    | restore k b due =>
        obtain ⟨-, -, s, ht, -⟩ := hφ
        cases ht.symm.trans hnone
    | join k =>
        obtain ⟨-, t, ht, -⟩ := hφ
        cases ht.symm.trans hnone
    | _ =>
        refine ⟨?_, ?_, ?_⟩
        · rwa [loaded_learn fun _ h => by cases h]
        · rwa [restored_learn]
        · rwa [joined_learn]
  · rename_i hij
    rw [if_neg hij]
    exact hw.started j h

lemma Inv.whole_answer {t : Token} (h : (grip j (w.answer i st r σ').log).joined = true)
    (ht : (grip j (w.answer i st r σ').log).token = some t) (hrg : (t.rg p).isSome = true) :
    (grip j (w.answer i st r σ').log).restored = true := by
  by_cases hij : i = j
  · subst hij
    rw [grip_answered, if_pos rfl] at h ht ⊢
    have hkeep (hj : (grip i w.log).joined = true) (ht : (grip i w.log).token = some t) :
        ((grip i w.log).learn st r).restored = true := by
      rw [restored_learn]
      split
      · rfl
      · exact hw.whole i t hj ht hrg
    cases st with
    | setData k t' =>
        obtain ⟨-, hnone⟩ := hφ
        rw [joined_learn] at h
        rw [(hw.started i hnone).2.2] at h
        cases h
    | join k =>
        obtain ⟨-, t', ht', hr⟩ := hφ
        rw [token_learn] at ht
        obtain rfl := Option.some.inj (ht'.symm.trans ht)
        rw [restored_learn]
        exact hr hrg
    | _ =>
        rw [joined_learn] at h
        rw [token_learn] at ht
        exact hkeep h ht
  · rw [grip_answered, if_neg hij] at h ht ⊢
    exact hw.whole j t h ht hrg

lemma Inv.users_answer (he : exec p o st w.state = some (r, σ')) {e : UserSocket}
    (h : e ∈ (σ'.nodes n).userSockets) : (grip e.socketId (w.answer i st r σ').log).joined = true := by
  rcases (sockets_exec he).2 n e h with rfl | h
  · obtain ⟨rfl, -⟩ := hφ
    rw [grip_answered, if_pos rfl, joined_learn]
  · exact joined_cons (hw.users n e h)

omit hφ in
lemma Inv.next_answer (he : exec p o st w.state = some (r, σ'))
    (h : (grip j (w.answer i st r σ').log).next = some k) : (grip k (w.answer i st r σ').log).joined = true := by
  apply joined_cons
  rw [grip_answered] at h
  split at h
  · rcases next_learn he h with h | ⟨n, e, he, rfl⟩
    · exact hw.next j k h
    · exact hw.users n e he
  · exact hw.next j k h

omit hφ in
lemma Inv.due_answer (he : exec p o st w.state = some (r, σ')) (h : Fired s (w.answer i st r σ').log) :
    timed p s = true := by
  rcases h.2 with hf | hf
  · obtain ⟨k, now, c, rfl, hc, rfl, hemit⟩ := fires_check he hf
    obtain ⟨v, a, -, -, ha, hd⟩ := check_some hc
    rw [hd] at hemit
    obtain ⟨-, hrg, -⟩ := rgState_operator ha
    simp [timed, hrg, interval_of_emit hemit]
  · exact hw.due s hf

lemma Inv.paused_fire (he : exec p o st w.state = some (r, σ')) (hr : (settled p).act i o st w)
    (hs : enforced p s = true) (hf : fires s (.answered i st r w.state σ') = true)
    (hrow : w.state.sockets.row k = some v) (hc : v.connected = true) (ht : tokenAfter k v st = some (.operator s)) :
    (grip k w.log).restored = true ∧ pendingAfter p k v st = some true := by
  obtain ⟨j, now, c, rfl, hcheck, rfl, hemit⟩ := fires_check he hf
  have hother := Table.findMany_eq_nil.1 (List.isEmpty_iff.1 (hr.1 _ rfl c hcheck hemit hs))
  have hkj : k = j := by
    by_contra hne
    refine hother k v hrow ?_
    have ht' : v.token = some (.operator c.sessionId) := ht
    simp [hc, ht', hne]
  subst hkj
  obtain ⟨v', a, hrow', -, ha, hd⟩ := check_some hcheck
  obtain rfl := Option.some.inj (hrow'.symm.trans hrow)
  obtain ⟨ht', hrg, -⟩ := rgState_operator ha
  constructor
  · refine hw.whole k _ (hw.next i k hφ) ((hw.token k v' hrow).symm.trans ht') ?_
    simp [Token.rg, hrg]
  · have hn : (rgEvaluate a now).nextPending = true := by
      rw [hd] at hemit
      exact nextPending_of_emit hemit ((enforced_of_rg hrg).symm.trans hs)
    simp [pendingAfter, hc, ha, hn]

lemma Inv.still_blank (he : exec p o st w.state = some (r, σ')) (hs : enforced p s = true)
    (hack : acks s (.answered i st r w.state σ') = false) (hrow : w.state.sockets.row k = some v)
    (ht : v.token = some (.operator s)) (hm : (grip k w.log).restored = false)
    (hnone : v.rgPending = none) (hst : ∀ b due, st ≠ .restore k b due) : pendingAfter p k v st = none := by
  obtain ⟨c, hrg, -⟩ := rg_of_enforced ht hs
  cases st with
  | check j now =>
      refine (if_neg fun h => ?_).trans hnone
      obtain ⟨rfl, -⟩ := h
      have hready := hw.whole k _ (hw.next i k hφ) ((hw.token k v hrow).symm.trans ht)
        (by simp [Token.rg, (rg_operator hrg).2])
      cases hm.symm.trans hready
  | restore j b due =>
      refine (if_neg fun h => ?_).trans hnone
      subst h
      exact hst b due rfl
  | acknowledge j =>
      refine (if_neg fun h => ?_).trans hnone
      obtain ⟨rfl, hc, hrg⟩ := h
      cases hack.symm.trans (acks_of_acknowledge he hrow hc ht hrg)
  | _ => exact hnone

lemma Inv.paused_waiting (he : exec p o st w.state = some (r, σ')) (hr : (settled p).act i o st w)
    (hs : enforced p s = true) (hf : Fired s w.log) (hack : acks s (.answered i st r w.state σ') = false)
    (hrow : w.state.sockets.row k = some v) (hc : v.connected = true) (ht : v.token = some (.operator s))
    (hm : (grip k w.log).restored = false) (hpending : v'.rgPending = pendingAfter p k v st) :
    Paused (grip k (w.answer i st r σ').log) v' := by
  obtain ⟨hnone, hloaded⟩ := (hw.paused s k v hs hf hrow hc ht).waiting hm
  have htok : (grip k w.log).token = some (.operator s) := (hw.token k v hrow).symm.trans ht
  by_cases hres : ∃ b due, st = .restore k b due
  · obtain ⟨b, due, rfl⟩ := hres
    obtain ⟨rfl, -, s', ht', hb⟩ := hφ
    obtain rfl : s' = s := Token.operator.inj (Option.some.inj (ht'.symm.trans htok))
    have hb : (grip k w.log).loaded = some b := hb.resolve_right fun h => by cases h.symm.trans (hw.due s' hf)
    have hbt : b = true := by
      cases b with
      | true => rfl
      | false => exact (hloaded hb).elim
    constructor
    · intro h
      rw [grip_answered, if_pos rfl, restored_learn] at h
      cases h
    · intro _
      rw [hpending, hbt]
      exact if_pos rfl
  · have hst : ∀ b due, st ≠ .restore k b due := fun b due h => hres ⟨b, due, h⟩
    have hblank := hw.still_blank hφ he hs hack hrow ht hm hnone hst
    have hm' : (grip k (w.answer i st r σ').log).restored = false := by
      rw [grip_answered]
      split
      · rename_i hik
        subst hik
        rw [restored_learn]
        split
        · obtain ⟨rfl, -⟩ := hφ
          exact (hst _ _ rfl).elim
        · exact hm
      · exact hm
    refine ⟨fun _ => ⟨hpending.trans hblank, ?_⟩, fun h => (by cases hm'.symm.trans h)⟩
    rw [grip_answered]
    split
    · rename_i hik
      subst hik
      by_cases hload : ∃ s', st = .loadRealityCheckState s'
      · obtain ⟨s', rfl⟩ := hload
        obtain ⟨ht', -⟩ := hφ
        obtain rfl : s' = s := Token.operator.inj (Option.some.inj (ht'.symm.trans htok))
        rw [loaded_load he (hr.2.1 _ rfl hs hf)]
        nofun
      · rw [loaded_learn fun s' h => hload ⟨s', h⟩]
        exact hloaded
    · exact hloaded

lemma Inv.paused_answer (he : exec p o st w.state = some (r, σ')) (hr : (settled p).act i o st w)
    (hs : enforced p s = true) (hf : Fired s (w.answer i st r σ').log) (hrow : σ'.sockets.row k = some v')
    (hc : v'.connected = true) (ht : v'.token = some (.operator s)) : Paused (grip k (w.answer i st r σ').log) v' := by
  obtain ⟨hack, hf⟩ := hf
  obtain ⟨v, hv, hcv, htv, hpv⟩ := row_before he hrow
  rw [htv] at ht
  rcases hf with hf | hf
  · obtain ⟨hready, hp⟩ := hw.paused_fire hφ he hr hs hf hv (hcv hc) ht
    exact ⟨fun h => (by cases h.symm.trans (restored_cons hready)), fun _ => hpv.trans hp⟩
  · by_cases hsame : v.token = some (.operator s)
    · cases hm : (grip k w.log).restored with
      | false => exact hw.paused_waiting hφ he hr hs hf hack hv (hcv hc) hsame hm hpv
      | true =>
          have hp := (hw.paused s k v hs hf hv (hcv hc) hsame).ready hm
          exact ⟨fun h => (by cases h.symm.trans (restored_cons hm)),
            fun _ => hpv.trans (pending_stays he hφ hs hv hsame hack hm hp)⟩
    · cases st with
      | setData j t =>
          by_cases hk : k = j
          · subst hk
            obtain ⟨rfl, hnone⟩ := hφ
            obtain ⟨hl, hm, -⟩ := hw.started k hnone
            have hblank := hw.blank k v hv ((hw.token k v hv).trans hnone)
            rw [grip_answered, if_pos rfl]
            refine ⟨fun _ => ⟨hpv.trans hblank, ?_⟩, fun h => ?_⟩
            · rw [loaded_learn (fun _ h => by cases h), hl]
              nofun
            · rw [restored_learn, hm] at h
              cases h
          · exact (hsame ((if_neg hk).symm.trans ht)).elim
      | _ => exact (hsame ht).elim

omit hφ in
lemma Inv.held_receive {r : gateway.Reply (.receive k)} (he : exec p o (.receive k) w.state = some (r, σ'))
    (hr : (settled p).act i o (.receive k) w) (hs : enforced p s = true) (hf : Fired s w.log)
    (h : r = .ok (some (.operator s))) :
    σ' = w.state ∧ (grip k w.log).restored = true ∧
      ∃ v, w.state.sockets.row k = some v ∧ v.token = some (.operator s) ∧ v.rgPending = some true := by
  subst h
  have hp := perform_of_ok he
  obtain ⟨v, hrow, hc, ht⟩ := tokenOf_some (Except.ok.inj (congrArg Prod.fst hp))
  obtain ⟨c, hrg, -⟩ := rg_of_enforced ht hs
  have hshown : v.rgPending.isSome = true := hr.2.2 k rfl v hrow hc (by rw [hrg]; rfl)
  have hpaused := hw.paused s k v hs hf hrow hc ht
  refine ⟨(congrArg Prod.snd hp).symm, ?_⟩
  cases hm : (grip k w.log).restored with
  | false =>
      rw [(hpaused.waiting hm).1] at hshown
      cases hshown
  | true => exact ⟨rfl, v, hrow, ht, hpaused.ready hm⟩

lemma Inv.held_answer (he : exec p o st w.state = some (r, σ')) (hr : (settled p).act i o st w)
    (hs : enforced p s = true) (h : InPause s j k (w.answer i st r σ').log) :
    (grip j (w.answer i st r σ').log).socket = some k ∧ (grip k (w.answer i st r σ').log).restored = true ∧
      ∃ v, σ'.sockets.row k = some v ∧ v.token = some (.operator s) ∧ v.rgPending = some true := by
  obtain ⟨hack, ⟨⟨b, a, heq⟩, hf⟩ | h⟩ := h
  · obtain ⟨rfl, rfl, hreply, -, -⟩ := Entry.answered.inj heq
    obtain ⟨rfl, hready, hv⟩ := hw.held_receive he hr hs hf (eq_of_heq hreply)
    refine ⟨?_, restored_cons hready, hv⟩
    rw [grip_answered, if_pos rfl, socket_learn]
  · obtain ⟨hsocket, hready, v, hv, ht, hp⟩ := hw.held s j k hs h
    refine ⟨?_, restored_cons hready, ?_⟩
    · rw [grip_answered]
      split
      · rename_i hij
        subst hij
        rw [socket_learn]
        split
        · cases hsocket.symm.trans hφ
        · exact hsocket
      · exact hsocket
    · obtain ⟨⟨g, hg, hstep⟩, -⟩ := sockets_exec he
      obtain ⟨-, htoken, hpending⟩ := hstep k v hv
      refine ⟨g k v, by rw [hg, hv]; rfl, ?_, ?_⟩
      · rw [htoken]
        cases st with
        | setData l t =>
            obtain ⟨rfl, hnone⟩ := hφ
            refine (if_neg fun hk => ?_).trans ht
            subst hk
            cases hnone.symm.trans ((hw.token k v hv).symm.trans ht)
        | _ => exact ht
      · exact hpending.trans (pending_stays he hφ hs hv ht hack hready hp)

lemma Inv.answer (he : exec p o st w.state = some (r, σ')) (hr : (settled p).act i o st w) :
    Inv p (w.answer i st r σ') where
  token _ _ := hw.token_answer hφ he
  blank _ _ := hw.blank_answer hφ he
  started _ := hw.started_answer hφ
  whole _ _ := hw.whole_answer hφ
  users _ _ := hw.users_answer hφ he
  next _ _ := hw.next_answer he
  due _ := hw.due_answer he
  paused _ _ _ := hw.paused_answer hφ he hr
  held _ _ _ := hw.held_answer hφ he hr

/-- A bet that is accepted is on a socket that shows no pause. -/
lemma Inv.not_dodged (he : exec p o st w.state = some (r, σ')) :
    NotDodged p (.answered i st r w.state σ') w.log := by
  rintro s j k hs hpause ⟨l, rest, b, a, heq⟩
  obtain ⟨rfl, rfl, hreply, -, -⟩ := Entry.answered.inj heq
  obtain rfl := eq_of_heq hreply
  obtain ⟨hsocket, -, v, hv, ht, hp⟩ := hw.held s i k hs hpause
  obtain rfl : l = k := Option.some.inj (hφ.symm.trans hsocket)
  obtain ⟨c, hrg, hc⟩ := rg_of_enforced ht hs
  have haccept := Except.ok.inj (congrArg Prod.fst (perform_of_ok he))
  have hdemo : (p.play s).demo = false := by
    cases h : (p.play s).demo with
    | false => rfl
    | true => cases (rg_operator hrg).2.symm.trans ((p.play s).uncontrolled h)
  simp [hv, Socket.rgBlocks, hrg, hdemo, (p.play s).started, hc, hp] at haccept

omit hφ in
lemma Inv.outside (h : Drops w.state σ') (hx : ∀ i s r b a, x ≠ .answered i s r b a) : Inv p ⟨σ', x :: w.log⟩ := by
  obtain ⟨⟨g, hg, hstep⟩, husers⟩ := h
  have hgrip (i : ℕ) : grip i (x :: w.log) = grip i w.log := by
    cases x with
    | answered i s r b a => exact (hx _ _ _ _ _ rfl).elim
    | moved | killed => rfl
  have hfired {s : ℕ} (h : Fired s (x :: w.log)) : Fired s w.log := by
    refine h.2.resolve_left fun hf => ?_
    cases x with
    | answered i s r b a => exact hx _ _ _ _ _ rfl
    | moved | killed => cases hf
  have hpause {s i k : ℕ} (h : InPause s i k (x :: w.log)) : InPause s i k w.log :=
    h.2.resolve_left fun hr => by
      obtain ⟨⟨b, a, rfl⟩, -⟩ := hr
      exact hx _ _ _ _ _ rfl
  have hbefore {k : ℕ} {v' : Socket} (h : σ'.sockets.row k = some v') : ∃ v, w.state.sockets.row k = some v ∧
      (v'.connected = true → v.connected = true) ∧ v'.token = v.token ∧ v'.rgPending = v.rgPending := by
    rw [hg] at h
    obtain ⟨v, hv, rfl⟩ := Option.map_eq_some_iff.1 h
    exact ⟨v, hv, hstep k v hv⟩
  constructor
  · intro k v' hv'
    obtain ⟨v, hv, -, ht, -⟩ := hbefore hv'
    rw [ht, hgrip]
    exact hw.token k v hv
  · intro k v' hv' hnone
    obtain ⟨v, hv, -, ht, hp⟩ := hbefore hv'
    rw [hp]
    exact hw.blank k v hv (ht ▸ hnone)
  · intro i
    rw [hgrip]
    exact hw.started i
  · intro i
    rw [hgrip]
    exact hw.whole i
  · intro n e he
    rw [hgrip]
    exact hw.users n e (husers n e he)
  · intro i k
    rw [hgrip, hgrip]
    exact hw.next i k
  · exact fun s hf => hw.due s (hfired hf)
  · intro s k v' hs hf hv' hc ht'
    obtain ⟨v, hv, hcv, ht, hp⟩ := hbefore hv'
    obtain ⟨hwaiting, hready⟩ := hw.paused s k v hs (hfired hf) hv (hcv hc) (ht ▸ ht')
    rw [hgrip]
    exact ⟨fun h => hp ▸ hwaiting h, fun h => hp ▸ hready h⟩
  · intro s i k hs hi
    obtain ⟨hsocket, hready, v, hv, ht, hp⟩ := hw.held s i k hs (hpause hi)
    obtain ⟨-, ht', hp'⟩ := hstep k v hv
    rw [hgrip, hgrip]
    exact ⟨hsocket, hready, g k v, by rw [hg, hv]; rfl, ht'.trans ht, hp'.trans hp⟩

omit hφ in
lemma Inv.connect {m : ℕ} {e : Event} (hrow : w.state.sockets.row n = none) (hgrip : grip n w.log = {}) :
    Inv p (w.move n e { w.state with sockets := w.state.sockets.insert n (fresh m) }) := by
  have hold {k : ℕ} {v : Socket} (h : (w.state.sockets.insert n (fresh m)).row k = some v) :
      k = n ∧ v = fresh m ∨ w.state.sockets.row k = some v := by
    rw [Table.row_insert] at h
    split at h
    · rename_i hk
      exact .inl ⟨hk, (Option.some.inj h).symm⟩
    · exact .inr h
  have hpause {s i k : ℕ} {b a : State} (h : InPause s i k (.moved n e b a :: w.log)) : InPause s i k w.log :=
    h.2.resolve_left fun hr => by
      obtain ⟨⟨b, a, heq⟩, -⟩ := hr
      cases heq
  refine ⟨?_, ?_, hw.started, hw.whole, hw.users, hw.next, ?_, ?_, ?_⟩
  · intro k v hv
    rcases hold hv with ⟨rfl, rfl⟩ | hv
    · exact (congrArg Grip.token hgrip).symm
    · exact hw.token k v hv
  · intro k v hv hnone
    rcases hold hv with ⟨rfl, rfl⟩ | hv
    · rfl
    · exact hw.blank k v hv hnone
  · exact fun s hf => hw.due s (hf.2.resolve_left (by nofun))
  · intro s k v hs hf hv hc ht
    rcases hold hv with ⟨rfl, rfl⟩ | hv
    · cases ht
    · exact hw.paused s k v hs (hf.2.resolve_left (by nofun)) hv hc ht
  · intro s i k hs hi
    obtain ⟨hsocket, hready, v, hv, ht, hp⟩ := hw.held s i k hs (hpause hi)
    refine ⟨hsocket, hready, v, ?_, ht, hp⟩
    have hk : k ≠ n := by
      rintro rfl
      cases hrow.symm.trans hv
    simpa [hk] using hv

end Runs

section Claim

variable {p : Params} {sessions : ℕ → Session} {now : ℕ} {c : GatewayConfig}

lemma drops_of_environment {e : Event} {n : ℕ} {σ σ' : State} {q : Option (Program gateway Outcome)}
    (h : environment p e n σ = some (σ', q)) :
    Drops σ σ' ∨ ∃ m, σ.sockets.row n = none ∧ σ' = { σ with sockets := σ.sockets.insert n (fresh m) } := by
  cases e with
  | connect m t =>
      simp only [environment] at h
      split at h
      · rename_i hrow
        exact .inr ⟨m, hrow, (Prod.mk.inj (Option.some.inj h)).1.symm⟩
      · cases h
  | drop j =>
      obtain rfl := (Prod.mk.inj (Option.some.inj h)).1
      exact .inl drops_disconnect
  | sweep | placeBet | realityCheckAck | revoke | pass =>
      obtain rfl := (Prod.mk.inj (Option.some.inj h)).1
      exact .inl ⟨turns_of_sockets rfl fun _ _ _ => ⟨rfl, rfl⟩, fun _ _ he => he⟩

lemma not_dodged_outside {x : GatewayEntry} {log : List GatewayEntry}
    (hx : ∀ i s r b a, x ≠ .answered i s r b a) : NotDodged p x log := by
  rintro s i k - - ⟨l, rest, b, a, rfl⟩
  exact hx _ _ _ _ _ rfl

/-- No bet dodges the pause, where every pause has reached the sockets of its session and its row. -/
theorem pause_holds (h : (settled p).Reaches (system p) (Config.initial (.start sessions now)) c) :
    Throughout (NotDodged p) c.world.log := by
  have hgood : c.Good (Contract.disciplined (system p) Grip.learn {} (Allows p) (fun _ _ _ => True)
      (settled p).unissued fun w => Inv p w ∧ Throughout (NotDodged p) w.log) := by
    refine good_of_discipline ?_ ?_ ?_ ?_ ?_ (Rule.Reaches.unissued h).1
    · exact fun n e w a q _ he => follows_call he
    · exact fun i o s w r a hw hr hφ he => ⟨hw.1.answer hφ he hr, hw.1.not_dodged hφ he, hw.2⟩
    · rintro n e w a q hw ⟨-, habsent⟩ he
      refine ⟨?_, not_dodged_outside nofun, hw.2⟩
      rcases drops_of_environment he with hd | ⟨m, hrow, rfl⟩
      · exact hw.1.outside hd nofun
      · exact hw.1.connect hrow (foldBy_of_absent habsent)
    · exact fun i w hw _ => ⟨hw.1.outside drops_refl nofun, not_dodged_outside nofun, hw.2⟩
    · exact ⟨⟨by simp [State.start], by simp [State.start], fun i _ => ⟨rfl, rfl, rfl⟩, nofun,
        by simp [State.start], nofun, nofun, nofun, nofun⟩, trivial⟩
  exact hgood.inv.2

end Claim

section Scenario

def receivesBet (s i k : ℕ) : GatewayEntry → Bool
  | .answered j (.receive l) (.ok (some (.operator t))) _ _ => j = i && l = k && t = s
  | _ => false

def acceptsBet (i : ℕ) : GatewayEntry → Bool
  | .answered j (.placeBet _ _) (.ok true) _ _ => j = i
  | _ => false

def inPause (s i k : ℕ) : List GatewayEntry → Bool
  | [] => false
  | x :: log => !acks s x && (receivesBet s i k x && decide (Since (acks s) (fun x => fires s x = true) log) ||
      inPause s i k log)

lemma receives_of_receivesBet {s i k : ℕ} {x : GatewayEntry} (h : receivesBet s i k x = true) : Receives s i k x := by
  unfold receivesBet at h
  split at h
  · simp only [Bool.and_eq_true, decide_eq_true_eq] at h
    obtain ⟨⟨rfl, rfl⟩, rfl⟩ := h
    exact ⟨_, _, rfl⟩
  · cases h

lemma accepts_of_acceptsBet {i : ℕ} {x : GatewayEntry} (h : acceptsBet i x = true) : Accepts i x := by
  unfold acceptsBet at h
  split at h
  · obtain rfl := of_decide_eq_true h
    exact ⟨_, _, _, _, rfl⟩
  · cases h

lemma inPause_of {s i k : ℕ} {log : List GatewayEntry} (h : inPause s i k log = true) : InPause s i k log := by
  induction log with
  | nil => cases h
  | cons x log ih =>
      simp only [inPause, Bool.and_eq_true, Bool.or_eq_true, Bool.not_eq_true', decide_eq_true_eq] at h
      exact ⟨h.1, h.2.imp (fun hr => ⟨receives_of_receivesBet hr.1, hr.2⟩) ih⟩

def params : Params := ⟨fun _ => ⟨7, false, some ⟨some 60, none, true⟩, 1, by decide, by simp⟩⟩

def acts (i n : ℕ) : List (Machine.Label Event Oracle) := List.replicate n (.act i .ok)

/-- The player reconnects after the check has fired and before it is persisted, and bets. -/
def reconnect : List (Machine.Label Event Oracle) :=
  .env (.connect 0 (.operator 0)) :: acts 0 5 ++ [.env (.pass 60000), .env (.sweep 0 1)] ++ acts 1 8 ++
    .env (.connect 0 (.operator 0)) :: acts 2 5 ++ .env (.placeBet 2 true) :: acts 3 3

/-- The player reconnects once the check is persisted, and bets before an acknowledgement and after it. -/
def patient : List (Machine.Label Event Oracle) :=
  .env (.connect 0 (.operator 0)) :: acts 0 5 ++ [.env (.pass 60000), .env (.sweep 0 2)] ++ acts 1 11 ++
    .env (.connect 0 (.operator 0)) :: acts 2 5 ++ .env (.placeBet 2 true) :: acts 3 3 ++
    .env (.realityCheckAck 2) :: acts 4 2 ++ .env (.placeBet 2 true) :: acts 5 3

def start : GatewayConfig := Config.initial (.start (fun _ => {}) 1)

def after (ls : List (Machine.Label Event Oracle)) : GatewayConfig := ((system params).run start ls).getD start

lemma after_reaches {R : GatewayRule} {ls : List (Machine.Label Event Oracle)}
    (hR : R.Obeys (system params) start ls) (h : ((system params).run start ls).isSome = true) :
    R.Reaches (system params) start (after ls) := by
  obtain ⟨c, hc⟩ := Option.isSome_iff_exists.1 h
  rw [after, hc]
  exact Rule.reaches_of_run hR hc

set_option synthInstance.maxSize 256 in
lemma obeys_patient : (settled params).Obeys (system params) start patient := by decide +kernel

/-- A bet waits for the acknowledgement. -/
theorem bet_waits : (settled params).Reaches (system params) start (after patient) ∧
    (∃ x ∈ (after patient).world.log, acceptsBet 5 x = true) ∧
      Throughout (NotDodged params) (after patient).world.log :=
  have h : (settled params).Reaches (system params) start (after patient) :=
    after_reaches obeys_patient (by decide +kernel)
  ⟨h, by decide +kernel, pause_holds h⟩

lemma reconnect_log : (after reconnect).world.log ≠ [] := by decide +kernel

/-- The bet on the new socket is accepted although the check has fired and nobody has acknowledged it. -/
theorem pause_dodged : Rule.free.Reaches (system params) start (after reconnect) ∧ enforced params 0 = true ∧
    ∃ x log, (after reconnect).world.log = x :: log ∧ InPause 0 3 2 log ∧ Accepts 3 x :=
  ⟨after_reaches Rule.obeys_free (by decide +kernel), rfl, _, _, (List.cons_head_tail reconnect_log).symm,
    inPause_of (by decide +kernel), accepts_of_acceptsBet (by decide +kernel)⟩

end Scenario

end VaultRun.Safety.RealityCheck
