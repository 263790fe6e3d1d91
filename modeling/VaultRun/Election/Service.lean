import VaultRun.Concurrency.Discipline

/-!
The election of a leader: the memory of each node, the advisory lock of a session and the fence row of the
database, and the calls of the nodes over them.
-/

namespace VaultRun.Election

open VaultRun.Concurrency Program

/-- The memory of a node; `client` is its dedicated session. -/
structure Node where
  leader : Bool := false
  myFence : Option ℕ := none
  stopped : Bool := false
  client : Option ℕ := none

/-- `live` says which sessions are alive, and `lock` which one holds the lock and how often it has taken it. -/
structure State where
  nodes : ℕ → Node
  fence : ℕ
  live : ℕ → Bool
  next : ℕ
  lock : Option (ℕ × ℕ)

inductive Err
  | connection
  | noClient
  deriving DecidableEq

inductive Stmt
  | mayAcquire (node : ℕ)
  | isLeader (node : ℕ)
  | mayBeat (node : ℕ)
  | hasFence (node : ℕ)
  | promote (node fence : ℕ)
  | demote (node : ℕ)
  | stop (node : ℕ)
  | client (node : ℕ)
  | setClient (node : ℕ) (session : Option ℕ)
  | isMyFence (node fence : ℕ)
  | connect
  | tryLock (session : ℕ)
  | bump (session node : ℕ)
  | ping (session : ℕ)
  | readFence (session : ℕ)
  | unlock (session : ℕ)
  | endSession (session : ℕ)
  | lease

@[reducible] def Stmt.Result : Stmt → Type
  | mayAcquire _ | isLeader _ | mayBeat _ | hasFence _ | demote _ | stop _ | isMyFence _ _ | tryLock _ => Bool
  | client _ => Option ℕ
  | connect | bump _ _ | readFence _ => ℕ
  | _ => Unit

abbrev election : Interface := ⟨Stmt, Stmt.Result, Err⟩

abbrev await (s : Stmt) : Program election s.Result := @Program.await election s

def Stmt.inMemory : Stmt → Bool
  | mayAcquire _ | isLeader _ | mayBeat _ | hasFence _ | promote _ _ | demote _ | stop _ | client _ | setClient _ _
  | isMyFence _ _ => true
  | _ => false

namespace State

variable (σ : State)

def setNode (n : ℕ) (f : Node → Node) : State := { σ with nodes := fun m => if m = n then f (σ.nodes m) else σ.nodes m }

/-- A session is over, and the lock is free if it held it. -/
def endSession (s : ℕ) : State :=
  { σ with
    live := fun t => if t = s then false else σ.live t
    lock := σ.lock.filter (·.1 ≠ s) }

/-- `pg_try_advisory_lock`: a session that holds the lock takes it once more. -/
def tryLock (s : ℕ) : Bool × State :=
  match σ.lock with
  | none => (true, { σ with lock := some (s, 1) })
  | some (holder, k) => if holder = s then (true, { σ with lock := some (s, k + 1) }) else (false, σ)

def unlock (s : ℕ) : State :=
  match σ.lock with
  | some (holder, k) => if holder = s then { σ with lock := if k = 1 then none else some (s, k - 1) } else σ
  | none => σ

/-- What needs a session fails where it is not alive. -/
def within {α : Type} (s : ℕ) (done : α × State) : Except Err α × State :=
  if σ.live s then (.ok done.1, done.2) else (.error .connection, σ)

end State

def perform (s : Stmt) (σ : State) : election.Reply s × State :=
  match s with
  | .mayAcquire n => (.ok (!((σ.nodes n).stopped || (σ.nodes n).leader)), σ)
  | .isLeader n => (.ok (σ.nodes n).leader, σ)
  | .mayBeat n => (.ok (!((σ.nodes n).stopped || !(σ.nodes n).leader)), σ)
  | .hasFence n => (.ok ((σ.nodes n).leader && (σ.nodes n).myFence.isSome), σ)
  | .promote n f => (.ok (), σ.setNode n ({ · with leader := true, myFence := some f }))
  | .demote n =>
      if (σ.nodes n).leader then (.ok true, σ.setNode n ({ · with leader := false, myFence := none })) else (.ok false, σ)
  | .stop n => (.ok (σ.nodes n).leader, σ.setNode n ({ · with stopped := true, leader := false }))
  | .client n => (.ok (σ.nodes n).client, σ)
  | .setClient n s => (.ok (), σ.setNode n ({ · with client := s }))
  | .isMyFence n f => (.ok ((σ.nodes n).myFence = some f), σ)
  | .connect => (.ok σ.next, { σ with next := σ.next + 1, live := fun t => if t = σ.next then true else σ.live t })
  | .tryLock s => σ.within s (σ.tryLock s)
  | .bump s _ => σ.within s (σ.fence + 1, { σ with fence := σ.fence + 1 })
  | .ping s => σ.within s ((), σ)
  | .readFence s => σ.within s (σ.fence, σ)
  | .unlock s => σ.within s ((), σ.unlock s)
  | .endSession s => (.ok (), σ.endSession s)
  | .lease => (.ok (), σ)

/-- How a statement over the network fares: `lost` fails before it takes effect and `unacked` after. -/
inductive Oracle
  | ok
  | lost
  | unacked
  deriving DecidableEq

def exec (o : Oracle) (s : Stmt) (σ : State) : Option (election.Reply s × State) :=
  match o with
  | .ok => some (perform s σ)
  | .lost => if s.inMemory then none else some (.error .connection, σ)
  | .unacked => if s.inMemory then none else some (.error .connection, (perform s σ).2)

namespace PgAdvisoryLock

def conn (n : ℕ) : Program election ℕ := do
  match ← await (.client n) with
  | some s => pure s
  | none =>
      let s ← await .connect
      await (.setClient n (some s))
      pure s

/-- The mirror of the lease, whose failures are swallowed. -/
def writeLease : Program election Unit := catching (await .lease) fun _ => pure ()

def tryAcquire (n : ℕ) : Program election (Option ℕ) := do
  let s ← conn n
  if ← await (.tryLock s) then
    let fence ← await (.bump s n)
    writeLease
    pure (some fence)
  else pure none

def currentFence (n : ℕ) : Program election ℕ := do
  let s ← conn n
  await (.readFence s)

def heartbeat (n : ℕ) : Program election Unit := do
  match ← await (.client n) with
  | none => raise .noClient
  | some s =>
      await (.ping s)
      let _ ← currentFence n
      writeLease

def release (n : ℕ) : Program election Unit := do
  match ← await (.client n) with
  | none => pure ()
  | some s =>
      catching (await (.unlock s)) fun _ => pure ()
      writeLease

def close (n : ℕ) : Program election Unit := do
  match ← await (.client n) with
  | none => await (.setClient n none)
  | some s =>
      catching (await (.endSession s)) fun _ => pure ()
      await (.setClient n none)

end PgAdvisoryLock

namespace ElectionService

open PgAdvisoryLock

def tick (n : ℕ) : Program election Unit := do
  if ← await (.mayAcquire n) then
    match ← (tryAcquire n).attempt with
    | .ok (some fence) => await (.promote n fence)
    | _ => pure ()
  else pure ()

/-- `demote`, which leaves the session to be closed behind it. -/
def demote (n : ℕ) : Program election Unit := do
  if ← await (.demote n) then close n else pure ()

def beat (n : ℕ) : Program election Unit := do
  if ← await (.mayBeat n) then catching (heartbeat n) fun _ => demote n
  else pure ()

def stepDown (n : ℕ) : Program election Unit := do
  if ← await (.isLeader n) then
    catching (release n) fun _ => pure ()
    demote n
  else pure ()

def onModuleDestroy (n : ℕ) : Program election Unit := do
  if ← await (.stop n) then
    catching (release n) fun _ => pure ()
    close n
  else close n

def assertStillLeader (n : ℕ) : Program election Bool := do
  if ← await (.hasFence n) then
    catching (do
      let current ← currentFence n
      await (.isMyFence n current)) fun _ => pure false
  else pure false

end ElectionService

inductive Call
  | tick (node : ℕ)
  | beat (node : ℕ)
  | stepDown (node : ℕ)
  | onModuleDestroy (node : ℕ)
  | assertStillLeader (node : ℕ)

inductive Outcome
  | done
  | answer (stillLeader : Bool)

def Call.prog : Call → Program election Outcome
  | tick n => (fun _ => Outcome.done) <$> ElectionService.tick n
  | beat n => (fun _ => Outcome.done) <$> ElectionService.beat n
  | stepDown n => (fun _ => Outcome.done) <$> ElectionService.stepDown n
  | onModuleDestroy n => (fun _ => Outcome.done) <$> ElectionService.onModuleDestroy n
  | assertStillLeader n => Outcome.answer <$> ElectionService.assertStillLeader n

inductive Event
  | lose (session : ℕ)
  | call (c : Call)

instance : Inhabited Event := ⟨.lose 0⟩

def environment (e : Event) (σ : State) : Option (State × Option (Program election Outcome)) :=
  match e with
  | .lose s => some (σ.endSession s, none)
  | .call c => some (σ, some c.prog)

def system : Machine election Outcome State Event Oracle where
  exec o _ := exec o
  env e _ := environment e
  abort _ := id

abbrev ElectionConfig := Config election Outcome State Event

abbrev ElectionWorld := World election State Event

abbrev ElectionEntry := Entry election State Event

abbrev ElectionRule := Rule election State Event Oracle

def State.start (fence : ℕ) : State := ⟨fun _ => {}, fence, fun _ => false, 0, none⟩

variable {o : Oracle} {s : Stmt} {σ σ' : State} {r : election.Reply s} {a : s.Result}

lemma exec_state (h : exec o s σ = some (r, σ')) : σ' = σ ∨ σ' = (perform s σ).2 := by
  cases o with
  | ok => exact .inr (congrArg Prod.snd (Option.some.inj h)).symm
  | lost =>
      simp only [exec] at h
      split at h
      · cases h
      · exact .inl (Prod.mk.inj (Option.some.inj h)).2.symm
  | unacked =>
      simp only [exec] at h
      split at h
      · cases h
      · exact .inr (Prod.mk.inj (Option.some.inj h)).2.symm

lemma perform_of_ok (h : exec o s σ = some (.ok a, σ')) : perform s σ = (.ok a, σ') := by
  cases o with
  | ok => exact Option.some.inj h
  | lost | unacked =>
      simp only [exec] at h
      split at h
      · cases h
      · cases (Prod.mk.inj (Option.some.inj h)).1

end VaultRun.Election
