import VaultRun.Fairness.Store

/-!
The fairness service: the salt providers, the epochs, and the allocation of seeds to rounds, as calls on any
number of nodes over one database.
-/

namespace VaultRun.Fairness

open VaultRun.Concurrency Program

/-- What a deployment fixes. `hmacSha256` gives the number that the first 13 hex digits of the HMAC spell. -/
structure Params where
  requireBlockSalt : Bool
  saltProvider : SaltSource
  chainLengthEnv : Option ℕ
  leadEnv : Option ℕ
  ethRpcMin : ℕ
  ethRpcUrls : ℕ
  sha256Hex : String → String
  hmacSha256 : String → String → ℕ

namespace Params

variable (P : Params)

def chainLength : ℕ :=
  match P.chainLengthEnv with
  | some n => if 2 ≤ n then n else 10000
  | none => 10000

def minLeadBlocks : ℕ := 128

def lead : ℕ :=
  match P.leadEnv with
  | some n => if minLeadBlocks ≤ n then n else minLeadBlocks
  | none => minLeadBlocks

/-- `assertFairnessBootConfig`: a node that does not pass does not start. -/
def boots : Bool :=
  !P.requireBlockSalt ||
    (P.saltProvider = .ethBlock && 3 ≤ P.ethRpcMin && 3 ≤ P.ethRpcUrls && P.ethRpcMin ≤ P.ethRpcUrls &&
      P.leadEnv.all (minLeadBlocks ≤ ·))

def computeCrash (seed salt : String) : ℕ := crashFromHmacHex (P.hmacSha256 seed salt)

lemma minLeadBlocks_le_lead : minLeadBlocks ≤ P.lead := by
  unfold lead
  split
  · split <;> omega
  · exact le_rfl

lemma two_le_chainLength : 2 ≤ P.chainLength := by
  unfold chainLength
  split
  · split <;> omega
  · omega

end Params

section SaltProvider

def DailySaltProvider.commit : Program fairness SaltCommitment := do
  let salt ← await .randomBytes
  pure ⟨.random, some salt, none⟩

def DailySaltProvider.resolve (c : SaltCommitment) : Program fairness (Option String) := pure c.salt

def EthBlockSaltProvider.commit (lead : ℕ) : Program fairness SaltCommitment := do
  let head ← await .latestBlockNumber
  pure ⟨.ethBlock, none, some (head + lead)⟩

def EthBlockSaltProvider.resolve (c : SaltCommitment) : Program fairness (Option String) :=
  match c.salt, c.targetBlock with
  | some salt, _ => pure (some salt)
  | none, none => pure none
  | none, some target => if target = 0 then pure none else await (.finalizedBlockHash target)

end SaltProvider

namespace FairnessService

variable (P : Params)

def commit : Program fairness SaltCommitment :=
  match P.saltProvider with
  | .random => DailySaltProvider.commit
  | .ethBlock => EthBlockSaltProvider.commit P.lead

def resolve (c : SaltCommitment) : Program fairness (Option String) :=
  match P.saltProvider with
  | .random => DailySaltProvider.resolve c
  | .ethBlock => EthBlockSaltProvider.resolve c

def retireChain (id : ℕ) : Program fairness Unit := do
  let _ ← await (.updateChain id { status := some .exhausted })

def promote (id : ℕ) : Program fairness (Option (ℕ × Chain)) := do
  let chain ← await (.updateChain id { status := some .active })
  pure (some chain)

def tryResolve (chain : Chain) : Program fairness (Option String) :=
  catching (resolve P ⟨chain.saltSource, chain.salt, chain.targetBlock⟩) fun _ => pure none

/-- The rows of a new epoch: the chain first, and its seeds in a statement of their own. -/
def insertEpoch (activate : Bool) (epoch : ℕ) (c : SaltCommitment) : Program fairness (Option (ℕ × Chain)) := do
  let status := if c.salt.isSome then (if activate then ChainStatus.active else .armed) else .pending
  let last ← await .randomBytes
  match generateSeedChain P.sha256Hex P.chainLength last with
  | none => raise .chainTooShort
  | some seeds =>
      let chain ← await (.createChain ⟨epoch, seeds.headD "", seeds.length, c.source, c.targetBlock, c.salt, status⟩)
      await (.createSeeds chain.1 seeds)
      pure (some chain)

/-- `none` where the strict mode refuses the random fallback. -/
def createEpoch (activate : Bool) : Program fairness (Option (ℕ × Chain)) := do
  let epochs ← await .maxEpoch
  let epoch := (epochs.map (· + 1)).getD 0
  match ← (commit P).attempt with
  | .error _ =>
      if P.requireBlockSalt then pure none
      else
        let c ← DailySaltProvider.commit
        insertEpoch P activate epoch c
  | .ok c =>
      if activate && c.salt.isNone then
        if P.requireBlockSalt then pure none
        else
          let c ← DailySaltProvider.commit
          insertEpoch P activate epoch c
      else insertEpoch P activate epoch c

/-- The strict mode does not serve an epoch whose salt is not a block hash. -/
def refuses (c : Chain) : Bool := P.requireBlockSalt && c.saltSource ≠ .ethBlock

/-- The third part of `ensureActiveChain`: arm the oldest pending epoch, or open a new one. -/
def armOrCreate : Program fairness (Option (ℕ × Chain)) := do
  match ← await (.findFirst .pending) with
  | none => createEpoch P true
  | some pending =>
      match ← tryResolve P pending.2 with
      | none => createEpoch P true
      | some salt =>
          let _ ← await (.updateChain pending.1 { salt := some salt })
          promote pending.1

/-- The second part: promote the oldest armed epoch. -/
def promoteArmed : Program fairness (Option (ℕ × Chain)) := do
  match ← await (.findFirst .armed) with
  | none => armOrCreate P
  | some armed =>
      if refuses P armed.2 then
        retireChain armed.1
        armOrCreate P
      else promote armed.1

def ensureActiveChain : Program fairness (Option (ℕ × Chain)) := do
  match ← await .findActive with
  | none => promoteArmed P
  | some active =>
      if refuses P active.2 then
        retireChain active.1
        promoteArmed P
      else pure (some active)

def allocateSeed : Program fairness (Option AllocatedSeed) := do
  match ← ensureActiveChain P with
  | none => pure none
  | some chain =>
      match ← await (.nextUnusedSeed chain.1) with
      | some seed => pure (some seed)
      | none =>
          let _ ← await (.updateChain chain.1 { status := some .exhausted })
          match ← ensureActiveChain P with
          | none => pure none
          | some next =>
              match ← await (.nextUnusedSeed next.1) with
              | some seed => pure (some seed)
              | none => raise .chainExhausted

def armOne (_ : Unit) (p : ℕ × Chain) : Program fairness Unit := do
  match ← tryResolve P p.2 with
  | none => pure ()
  | some salt =>
      let _ ← await (.updateChain p.1 { status := some .armed, salt := some salt })

def maintainOnce : Program fairness Unit := do
  let pendings ← await .findPendings
  loop (armOne P) () pendings
  match ← await .findActive with
  | none => pure ()
  | some _ =>
      let queued ← await .countQueued
      if queued = 0 then
        let _ ← createEpoch P false

def maintain (node : ℕ) : Program fairness Unit := do
  if ← await (.beginMaintain node) then
    catching (maintainOnce P) fun _ => pure ()
    await (.endMaintain node)
  else pure ()

def getCurrentCommit : Program fairness (Option (Chain × ℕ × Option Chain)) := do
  match ← await .findActive with
  | none => pure none
  | some chain =>
      let revealed ← await (.countRevealed chain.1)
      let next ← await .findNext
      pure (some (chain.2, revealed - 1, next.map (·.2)))

def ensureChain : Program fairness (Option (Chain × ℕ × Option Chain)) := do
  let _ ← ensureActiveChain P
  getCurrentCommit

/-- `seed.chain.salt!`: without a salt the HMAC throws. -/
def crashForSeed (s : AllocatedSeed) : Program fairness ℕ :=
  match s.salt with
  | some salt => pure (P.computeCrash s.seed salt)
  | none => raise .saltMissing

def openRound : Program fairness (Option ℕ) := do
  match ← allocateSeed P with
  | none => pure none
  | some s =>
      let crash ← crashForSeed P s
      let round ← await (.createRound s.seedId crash)
      pure (some round)

end FairnessService

inductive Call
  | allocateSeed
  | maintain (node : ℕ)
  | ensureChain
  | openRound
  | revealSeed (seedId : ℕ × ℕ)

inductive Outcome
  | seed (s : Option AllocatedSeed)
  | round (r : Option ℕ)
  | done

def Call.prog (P : Params) : Call → Program fairness Outcome
  | allocateSeed => Outcome.seed <$> FairnessService.allocateSeed P
  | maintain n => (fun _ => Outcome.done) <$> FairnessService.maintain P n
  | ensureChain => (fun _ => Outcome.done) <$> FairnessService.ensureChain P
  | openRound => Outcome.round <$> FairnessService.openRound P
  | revealSeed k => (fun _ => Outcome.done) <$> await (.revealSeed k)

inductive Event
  | call (c : Call)
  | boot (node : ℕ)

def environment (P : Params) (e : Event) (σ : State) : Option (State × Option (Program fairness Outcome)) :=
  match e with
  | .call c => some (σ, some (c.prog P))
  | .boot n => some (σ.setMaintaining n false, none)

def system (P : Params) : Machine fairness Outcome State Event Oracle where
  exec o _ := exec o
  env e _ := environment P e
  abort _ := id

abbrev FairConfig := Config fairness Outcome State Event

abbrev FairWorld := World fairness State Event

abbrev FairEntry := Entry fairness State Event

abbrev FairRule := Rule fairness State Event Oracle

def State.empty : State := ⟨∅, ∅, ∅, fun _ => false⟩

/-- One deployment after the other over one database, and all that has happened, the newest first. -/
inductive Deployed (ok : Params → Prop) (R : FairRule) : State → List FairEntry → Prop
  | empty : Deployed ok R .empty []
  | deploy {P : Params} {σ : State} {log : List FairEntry} {c : FairConfig} (h : Deployed ok R σ log) (hP : ok P)
      (hc : R.Reaches (system P) (Config.initial σ) c) : Deployed ok R c.world.state (c.world.log ++ log)

namespace Scenario

def params (strict : Bool) (provider : SaltSource) : Params where
  requireBlockSalt := strict
  saltProvider := provider
  chainLengthEnv := some 2
  leadEnv := none
  ethRpcMin := 3
  ethRpcUrls := 3
  sha256Hex := fun _ => "commit"
  hmacSha256 := fun _ _ => 0

def acts (i n : ℕ) : List (Machine.Label Event Oracle) := List.replicate n (.act i .ok)

def opensRandom (i : ℕ) : List (Machine.Label Event Oracle) :=
  acts i 4 ++ [.act i (.bytes "salt"), .act i (.bytes "last")] ++ acts i 1

end Scenario

end VaultRun.Fairness
