import VaultRun.Concurrency.Discipline
import VaultRun.Data.Table

/-!
The gateway of the players: the sockets of each node, the reality checks of their sessions, and what the sweep,
a connection, a bet and an acknowledgement do over them.
-/

namespace VaultRun.Gateway

open VaultRun.Concurrency VaultRun.Data Program

/-- The controls of a token, whose times are positive where they are there. -/
structure EffectiveRg where
  realityCheckIntervalSec : Option ℕ
  maxSessionSec : Option ℕ
  enforceRealityCheck : Bool

structure RgSocketState where
  rg : EffectiveRg
  sessionStartedAt : ℕ
  rgRealityDueAt : Option ℕ
  rgPending : Bool
  rgTimeLimitNotified : Bool

structure RgDecision where
  emitRealityCheck : Bool := false
  tripTimeLimit : Bool := false
  nextDueAt : Option ℕ
  nextPending : Bool
  nextTimeLimitNotified : Bool

def EffectiveRg.over (rg : EffectiveRg) (sessionStartedAt now : ℕ) : Bool :=
  rg.maxSessionSec.any fun sec => sessionStartedAt + sec * 1000 ≤ now

def rgEvaluate (s : RgSocketState) (now : ℕ) : RgDecision :=
  let base : RgDecision :=
    { nextDueAt := s.rgRealityDueAt, nextPending := s.rgPending, nextTimeLimitNotified := s.rgTimeLimitNotified }
  if s.rg.over s.sessionStartedAt now then
    { base with tripTimeLimit := !s.rgTimeLimitNotified, nextTimeLimitNotified := true }
  else
    match s.rg.realityCheckIntervalSec, s.rgRealityDueAt with
    | some interval, some due =>
        if due ≤ now then
          { base with
            emitRealityCheck := true
            nextDueAt := some (now + interval * 1000)
            nextPending := if s.rg.enforceRealityCheck then true else s.rgPending }
        else base
    | _, _ => base

/-- The play token of a session, which is minted once; a demo token carries no controls. -/
structure Play where
  userId : ℕ
  demo : Bool
  rg : Option EffectiveRg
  sessionStartedAt : ℕ
  started : sessionStartedAt ≠ 0
  uncontrolled : demo = true → rg = none

structure Params where
  play : ℕ → Play

inductive Token
  | guest (userId : ℕ)
  | operator (sessionId : ℕ)
  deriving DecidableEq

/-- A socket and its `data`, of which `token` is what comes from its verified token. -/
structure Socket where
  node : ℕ
  connected : Bool
  token : Option Token
  rgPending : Option Bool
  rgRealityDueAt : Option ℕ
  rgTimeLimitNotified : Bool

structure Session where
  revoked : Bool := false
  realityCheckPendingAt : Option ℕ := none
  realityCheckLastAckAt : Option ℕ := none
  realityCheckDueAt : Option ℕ := none

/-- An entry of `userSockets`, in the order of its insertion. -/
structure UserSocket where
  seq : ℕ
  userId : ℕ
  socketId : ℕ

structure Node where
  userSockets : List UserSocket := []
  nextSeq : ℕ := 0
  rgSweeping : Bool := false

structure State where
  sockets : Table ℕ Socket
  sessions : ℕ → Session
  nodes : ℕ → Node
  now : ℕ

inductive Err
  | unavailable

structure Check where
  sessionId : ℕ
  decision : RgDecision

inductive Notice
  | sessionTimeLimit
  | realityCheck

inductive Stmt
  | beginSweep (node : ℕ)
  | endSweep (node : ℕ)
  | bySession (node : ℕ)
  | disconnect (sockets : List ℕ)
  | nextSocket (node : ℕ) (after : Option ℕ)
  | check (socketId now : ℕ)
  | emit (socketId : ℕ) (notice : Notice)
  | setData (socketId : ℕ) (t : Token)
  | restore (socketId : ℕ) (pending : Bool) (dueAt : Option ℕ)
  | join (socketId : ℕ)
  | receive (socketId : ℕ)
  | placeBet (socketId : ℕ) (rest : Bool)
  | acknowledge (socketId : ℕ)
  | isLive (sessionId : ℕ)
  | findNotLive (sessionIds : List ℕ)
  | sessionAccounting (sessionId : ℕ)
  | markRealityCheckPending (sessionId : ℕ) (nextDueAt : Option ℕ)
  | ackRealityCheck (sessionId : ℕ) (nextDueAt : Option ℕ)
  | loadRealityCheckState (sessionId : ℕ)

@[reducible] def Stmt.Result : Stmt → Type
  | beginSweep _ => Option ℕ
  | bySession _ => List (ℕ × ℕ)
  | nextSocket _ _ => Option UserSocket
  | check _ _ => Option Check
  | receive _ => Option Token
  | placeBet _ _ | isLive _ => Bool
  | acknowledge _ => Option (ℕ × Option ℕ)
  | findNotLive _ => List ℕ
  | loadRealityCheckState _ => Bool × Option ℕ
  | _ => Unit

abbrev gateway : Interface := ⟨Stmt, Stmt.Result, Err⟩

abbrev await (s : Stmt) : Program gateway s.Result := @Program.await gateway s

def Stmt.inMemory : Stmt → Bool
  | isLive _ | findNotLive _ | sessionAccounting _ | markRealityCheckPending _ _ | ackRealityCheck _ _
  | loadRealityCheckState _ => false
  | _ => true

def Token.userId (p : Params) : Token → ℕ
  | guest u => u
  | operator s => (p.play s).userId

def Token.sessionId : Token → Option ℕ
  | guest _ => none
  | operator s => some s

/-- The due time of a session that has none persisted. -/
def EffectiveRg.firstDue (rg : EffectiveRg) (sessionStartedAt : ℕ) : Option ℕ :=
  rg.realityCheckIntervalSec.map fun sec => sessionStartedAt + sec * 1000

/-- The controls that the token of a socket carries, with its session. -/
def Token.rg (p : Params) : Token → Option (ℕ × EffectiveRg)
  | guest _ => none
  | operator s => (p.play s).rg.map (s, ·)

def Socket.rg (p : Params) (x : Socket) : Option (ℕ × EffectiveRg) := x.token.bind (·.rg p)

def Socket.rgState (p : Params) (x : Socket) : Option (ℕ × RgSocketState) :=
  (x.rg p).map fun c => (c.1,
    { rg := c.2
      sessionStartedAt := (p.play c.1).sessionStartedAt
      rgRealityDueAt := x.rgRealityDueAt
      rgPending := x.rgPending = some true
      rgTimeLimitNotified := x.rgTimeLimitNotified })

def Socket.decided (x : Socket) (d : RgDecision) : Socket :=
  { x with
    rgRealityDueAt := d.nextDueAt
    rgPending := some d.nextPending
    rgTimeLimitNotified := d.nextTimeLimitNotified }

/-- Whether `placeBet` turns a bet of the socket away for the controls of its session. -/
def Socket.rgBlocks (p : Params) (x : Socket) (now : ℕ) : Bool :=
  match x.rg p with
  | some (s, rg) =>
      !(p.play s).demo && (p.play s).sessionStartedAt ≠ 0 &&
        (rg.enforceRealityCheck && x.rgPending = some true || rg.over (p.play s).sessionStartedAt now)
  | none => false

namespace State

variable (p : Params) (σ : State)

def setSocket (k : ℕ) (f : Socket → Socket) : State := { σ with sockets := σ.sockets.updateMany (fun j _ => j = k) f }

def setNode (n : ℕ) (f : Node → Node) : State := { σ with nodes := fun m => if m = n then f (σ.nodes m) else σ.nodes m }

def setSession (s : ℕ) (f : Session → Session) : State :=
  { σ with sessions := fun t => if t = s ∧ (σ.sessions t).revoked = false then f (σ.sessions t) else σ.sessions t }

/-- `disconnect(true)`, with the `handleDisconnect` that it runs. -/
def disconnect (k : ℕ) : State :=
  match σ.sockets.row k with
  | some x =>
      if x.connected then
        (σ.setSocket k ({ · with connected := false })).setNode x.node fun v =>
          { v with userSockets := v.userSockets.filter fun e => !(x.token.any (·.userId p = e.userId) && e.socketId = k) }
      else σ
  | none => σ

def disconnectAll : List ℕ → State → State
  | [], σ => σ
  | k :: ks, σ => disconnectAll ks (σ.disconnect p k)

end State

/-- `userSockets.set`, which leaves a key that is there in its place. -/
def Node.setUserSocket (v : Node) (userId socketId : ℕ) : Node :=
  if v.userSockets.any (·.userId = userId) then
    { v with userSockets := v.userSockets.map fun e => if e.userId = userId then { e with socketId := socketId } else e }
  else { v with userSockets := v.userSockets ++ [⟨v.nextSeq, userId, socketId⟩], nextSeq := v.nextSeq + 1 }

namespace State

variable (p : Params) (σ : State)

/-- One active socket for each user: the socket before is dropped. -/
def join (k : ℕ) : State :=
  match σ.sockets.row k with
  | some x =>
      match x.token with
      | some t =>
          let prev := (σ.nodes x.node).userSockets.find? (·.userId = t.userId p)
          (match prev with
            | some e => if e.socketId = k then σ else σ.disconnect p e.socketId
            | none => σ).setNode x.node (·.setUserSocket (t.userId p) k)
      | none => σ
  | none => σ

def check (k now : ℕ) : Option Check × State :=
  match (σ.sockets.row k).filter (·.connected) |>.bind (·.rgState p) with
  | some (s, st) => (some ⟨s, rgEvaluate st now⟩, σ.setSocket k (·.decided (rgEvaluate st now)))
  | none => (none, σ)

def tokenOf (k : ℕ) : Option Token := (σ.sockets.row k).filter (·.connected) |>.bind (·.token)

def ackDue (rg : EffectiveRg) : Option ℕ := rg.realityCheckIntervalSec.map fun sec => σ.now + sec * 1000

def acknowledge (k : ℕ) : Option (ℕ × Option ℕ) × State :=
  match (σ.tokenOf k).bind (·.rg p) with
  | some (s, rg) =>
      (some (s, σ.ackDue rg), σ.setSocket k fun x =>
        { x with rgPending := some false, rgRealityDueAt := (σ.ackDue rg).orElse fun _ => x.rgRealityDueAt })
  | none => (none, σ)

/-- The sockets that a node has for a session, over the sessions that it has any for. -/
def bySession (n : ℕ) : List (ℕ × ℕ) :=
  (σ.nodes n).userSockets.filterMap fun e => ((σ.tokenOf e.socketId).bind (·.sessionId)).map (·, e.socketId)

def restore (k : ℕ) (pending : Bool) (dueAt : Option ℕ) : State :=
  σ.setSocket k fun x =>
    { x with
      rgPending := some pending
      rgRealityDueAt := dueAt.orElse fun _ => (x.rg p).bind fun c => c.2.firstDue (p.play c.1).sessionStartedAt }

end State

def perform (p : Params) (s : Stmt) (σ : State) : gateway.Reply s × State :=
  match s with
  | .beginSweep n =>
      if (σ.nodes n).rgSweeping then (.ok none, σ)
      else (.ok (some σ.now), σ.setNode n ({ · with rgSweeping := true }))
  | .endSweep n => (.ok (), σ.setNode n ({ · with rgSweeping := false }))
  | .bySession n => (.ok (σ.bySession n), σ)
  | .disconnect sockets => (.ok (), State.disconnectAll p sockets σ)
  | .nextSocket n after =>
      (.ok ((σ.nodes n).userSockets.find? fun e => after.all (· < e.seq)), σ)
  | .check k now => (.ok (σ.check p k now).1, (σ.check p k now).2)
  | .emit _ _ => (.ok (), σ)
  | .setData k t => (.ok (), σ.setSocket k ({ · with token := some t, rgTimeLimitNotified := false }))
  | .restore k pending dueAt => (.ok (), σ.restore p k pending dueAt)
  | .join k => (.ok (), σ.join p k)
  | .receive k => (.ok (σ.tokenOf k), σ)
  | .placeBet k rest => (.ok (rest && (σ.sockets.row k).any fun x => !x.rgBlocks p σ.now), σ)
  | .acknowledge k => (.ok (σ.acknowledge p k).1, (σ.acknowledge p k).2)
  | .isLive s => (.ok (!(σ.sessions s).revoked), σ)
  | .findNotLive ss => (.ok (ss.filter fun s => (σ.sessions s).revoked), σ)
  | .sessionAccounting _ => (.ok (), σ)
  | .markRealityCheckPending s dueAt =>
      (.ok (), σ.setSession s fun x =>
        { x with
          realityCheckPendingAt := some σ.now
          realityCheckDueAt := dueAt.orElse fun _ => x.realityCheckDueAt })
  | .ackRealityCheck s dueAt =>
      (.ok (), σ.setSession s fun x =>
        { x with
          realityCheckPendingAt := none
          realityCheckLastAckAt := some σ.now
          realityCheckDueAt := dueAt.orElse fun _ => x.realityCheckDueAt })
  | .loadRealityCheckState s =>
      (.ok ((σ.sessions s).realityCheckPendingAt.isSome, (σ.sessions s).realityCheckDueAt), σ)

/-- How a statement over the network fares: `lost` fails before it takes effect and `unacked` after. -/
inductive Oracle
  | ok
  | lost
  | unacked
  deriving DecidableEq

def exec (p : Params) (o : Oracle) (s : Stmt) (σ : State) : Option (gateway.Reply s × State) :=
  match o with
  | .ok => some (perform p s σ)
  | .lost => if s.inMemory then none else some (.error .unavailable, σ)
  | .unacked => if s.inMemory then none else some (.error .unavailable, (perform p s σ).2)

namespace GameGateway

variable (p : Params)

def disconnectRevokedSockets (n : ℕ) : Program gateway Unit := do
  let bySession ← await (.bySession n)
  if bySession.isEmpty then pure ()
  else
    let notLive ← await (.findNotLive (bySession.map (·.1)))
    await (.disconnect ((bySession.filter fun e => notLive.contains e.1).map (·.2)))

def notify (k : ℕ) (decision : RgDecision) : Program gateway Unit :=
  if decision.tripTimeLimit then await (.emit k .sessionTimeLimit) else pure ()

/-- What a check that has fired is followed by. -/
def remind (k s : ℕ) (decision : RgDecision) : Program gateway Unit := do
  catching (await (.sessionAccounting s)) fun _ => pure ()
  await (.emit k .realityCheck)
  catching
    (if decision.nextPending then await (.markRealityCheckPending s decision.nextDueAt)
      else await (.ackRealityCheck s decision.nextDueAt)) fun _ => pure ()

/-- A turn of the sweep, for one socket of its node. -/
def sweepSocket (k now : ℕ) : Program gateway Unit := do
  match ← await (.check k now) with
  | none => pure ()
  | some c =>
      notify k c.decision
      if c.decision.emitRealityCheck then remind k c.sessionId c.decision else pure ()

/-- The turns over the entries of `userSockets`, which may change on the way. A sweep that has taken `turns` of
them and not come to the end is still under way. -/
def sweepFrom (n now : ℕ) : ℕ → Option ℕ → Program gateway Bool
  | 0, _ => pure false
  | turns + 1, after => do
      match ← await (.nextSocket n after) with
      | none => pure true
      | some e =>
          sweepSocket e.socketId now
          sweepFrom n now turns (some e.seq)

def runRgSweep (n turns : ℕ) : Program gateway Unit := do
  match ← await (.beginSweep n) with
  | none => pure ()
  | some now =>
      let swept ← (do
        disconnectRevokedSockets n
        sweepFrom n now turns none).attempt
      match swept with
      | .ok false => pure ()
      | _ => await (.endSweep n)

def handleConnection (k : ℕ) (t : Token) : Program gateway Unit := do
  match t with
  | .guest _ =>
      await (.setData k t)
      await (.join k)
  | .operator s =>
      if ← catching (await (.isLive s)) fun _ => pure false then
        await (.setData k t)
        match (p.play s).rg with
        | none => await (.join k)
        | some rg =>
            let restored ←
              if rg.realityCheckIntervalSec.isSome then
                catching (await (.loadRealityCheckState s)) fun _ => pure (true, none)
              else pure (false, none)
            await (.restore k restored.1 restored.2)
            await (.join k)
      else pure ()

/-- `place_bet`, of which `rest` is what `placeBet` makes of the bet but for the controls of the session. -/
def onPlaceBet (k : ℕ) (rest : Bool) : Program gateway Bool := do
  match ← await (.receive k) with
  | none => pure false
  | some (.guest _) => await (.placeBet k rest)
  | some (.operator s) =>
      if ← catching (await (.isLive s)) fun _ => pure true then await (.placeBet k rest) else pure false

def onRealityCheckAck (k : ℕ) : Program gateway Unit := do
  match ← await (.acknowledge k) with
  | none => pure ()
  | some (s, dueAt) => catching (await (.ackRealityCheck s dueAt)) fun _ => pure ()

end GameGateway

inductive Event
  | connect (node : ℕ) (t : Token)
  | drop (socketId : ℕ)
  | sweep (node turns : ℕ)
  | placeBet (socketId : ℕ) (rest : Bool)
  | realityCheckAck (socketId : ℕ)
  | revoke (sessionId : ℕ)
  | pass (ms : ℕ)

inductive Outcome
  | done
  | answer (accepted : Bool)

def fresh (n : ℕ) : Socket := ⟨n, true, none, none, none, false⟩

/-- A connection is a socket of its own, which takes its number from its call. -/
def environment (p : Params) (e : Event) (k : ℕ) (σ : State) : Option (State × Option (Program gateway Outcome)) :=
  match e with
  | .connect n t =>
      if σ.sockets.row k = none then
        some ({ σ with sockets := σ.sockets.insert k (fresh n) },
          some ((fun _ => Outcome.done) <$> GameGateway.handleConnection p k t))
      else none
  | .drop j => some (σ.disconnect p j, none)
  | .sweep n turns => some (σ, some ((fun _ => Outcome.done) <$> GameGateway.runRgSweep n turns))
  | .placeBet j rest => some (σ, some (Outcome.answer <$> GameGateway.onPlaceBet j rest))
  | .realityCheckAck j => some (σ, some ((fun _ => Outcome.done) <$> GameGateway.onRealityCheckAck j))
  | .revoke s => some (σ.setSession s ({ · with revoked := true }), none)
  | .pass ms => some ({ σ with now := σ.now + ms }, none)

def system (p : Params) : Machine gateway Outcome State Event Oracle where
  exec o _ := exec p o
  env := environment p
  abort _ := id

abbrev GatewayConfig := Config gateway Outcome State Event

abbrev GatewayWorld := World gateway State Event

abbrev GatewayEntry := Entry gateway State Event

abbrev GatewayRule := Rule gateway State Event Oracle

def State.start (sessions : ℕ → Session) (now : ℕ) : State := ⟨∅, sessions, fun _ => {}, now⟩

end VaultRun.Gateway
