import VaultRun.Election.Service

/-!
The fences of the election: they are handed out in order, a fence speaks for one node, and a node that has been
demoted leads again only by a fence that it has been handed since, unless a tick of its own was still on its way.
-/

namespace VaultRun.Safety.Fencing

open VaultRun.Concurrency VaultRun.Election Program

/-- What a call has in hand: a fence for a node that it has not promoted yet, and the last fence it has read. -/
structure Grip where
  fence : Option (ℕ × ℕ) := none
  read : Option ℕ := none

def Grip.learn (m : Grip) : (s : Stmt) → election.Reply s → Grip
  | .bump _ n, .ok f => { m with fence := some (n, f) }
  | .promote _ _, _ => { m with fence := none }
  | .readFence _, .ok f => { m with read := some f }
  | _, _ => m

def grip (i : ℕ) (log : List ElectionEntry) : Grip := foldBy Grip.learn {} i log

def Allows (m : Grip) : Stmt → Prop
  | .promote n f => m.fence = some (n, f)
  | .isMyFence _ f => m.read = some f
  | _ => True

def Hands (n f : ℕ) (x : ElectionEntry) : Prop :=
  ∃ i s r b a, x = .answered i (.bump s n) r b a ∧ b.fence + 1 = f ∧ a.fence = f

def demotes (n : ℕ) : ElectionEntry → Bool
  | .answered _ (.demote m) _ b _ => m = n && (b.nodes n).leader
  | _ => false

/-- `assertStillLeader` yields true on node `n` by its fence. -/
def Yields (i n f : ℕ) (x : ElectionEntry) : Prop := ∃ b a, x = .answered i (.isMyFence n f) (.ok true) b a

def ReadsLatest (i f : ℕ) (x : ElectionEntry) : Prop :=
  ∃ s b a, x = .answered i (.readFence s) (.ok f) b a ∧ b.fence = f

section Programs

variable {m : Grip} {n : ℕ}

def quiet : Stmt → Bool
  | .promote _ _ | .isMyFence _ _ => false
  | _ => true

lemma allows_of_quiet {s : Stmt} (h : quiet s = true) : Allows m s := by
  cases s <;> trivial

lemma conn_quiet : (PgAdvisoryLock.conn n).Uses fun s => quiet s = true := by
  refine uses_bind.2 ⟨⟨rfl, by simp⟩, fun c _ => ?_⟩
  cases c with
  | none => exact uses_bind.2 ⟨⟨rfl, by simp⟩, fun s _ => uses_bind.2 ⟨⟨rfl, by simp⟩, by simp⟩⟩
  | some s => trivial

lemma writeLease_uses : PgAdvisoryLock.writeLease.Uses (· = Stmt.lease) :=
  uses_catching.2 ⟨⟨rfl, by simp⟩, by simp⟩

lemma writeLease_quiet : PgAdvisoryLock.writeLease.Uses fun s => quiet s = true :=
  writeLease_uses.mono (by rintro s rfl; rfl)

lemma currentFence_quiet : (PgAdvisoryLock.currentFence n).Uses fun s => quiet s = true :=
  uses_bind.2 ⟨conn_quiet, fun _ _ => ⟨rfl, by simp⟩⟩

lemma heartbeat_quiet : (PgAdvisoryLock.heartbeat n).Uses fun s => quiet s = true := by
  refine uses_bind.2 ⟨⟨rfl, by simp⟩, fun c _ => ?_⟩
  cases c with
  | none => trivial
  | some s =>
      exact uses_bind.2 ⟨⟨rfl, by simp⟩, fun _ _ => uses_bind.2 ⟨currentFence_quiet, fun _ _ => writeLease_quiet⟩⟩

lemma release_quiet : (PgAdvisoryLock.release n).Uses fun s => quiet s = true := by
  refine uses_bind.2 ⟨⟨rfl, by simp⟩, fun c _ => ?_⟩
  cases c with
  | none => trivial
  | some s => exact uses_bind.2 ⟨uses_catching.2 ⟨⟨rfl, by simp⟩, by simp⟩, fun _ _ => writeLease_quiet⟩

lemma close_quiet : (PgAdvisoryLock.close n).Uses fun s => quiet s = true := by
  refine uses_bind.2 ⟨⟨rfl, by simp⟩, fun c _ => ?_⟩
  cases c with
  | none => exact ⟨rfl, by simp⟩
  | some s => exact uses_bind.2 ⟨uses_catching.2 ⟨⟨rfl, by simp⟩, by simp⟩, fun _ _ => ⟨rfl, by simp⟩⟩

lemma demote_quiet : (ElectionService.demote n).Uses fun s => quiet s = true :=
  uses_bind.2 ⟨⟨rfl, by simp⟩, fun b _ => by cases b <;> simp [close_quiet]⟩

lemma beat_quiet : (ElectionService.beat n).Uses fun s => quiet s = true := by
  refine uses_bind.2 ⟨⟨rfl, by simp⟩, fun b _ => ?_⟩
  cases b with
  | true => exact uses_catching.2 ⟨heartbeat_quiet, fun _ _ => demote_quiet⟩
  | false => trivial

lemma stepDown_quiet : (ElectionService.stepDown n).Uses fun s => quiet s = true := by
  refine uses_bind.2 ⟨⟨rfl, by simp⟩, fun b _ => ?_⟩
  cases b with
  | true => exact uses_bind.2 ⟨uses_catching.2 ⟨release_quiet, by simp⟩, fun _ _ => demote_quiet⟩
  | false => trivial

lemma onModuleDestroy_quiet : (ElectionService.onModuleDestroy n).Uses fun s => quiet s = true := by
  refine uses_bind.2 ⟨⟨rfl, by simp⟩, fun b _ => ?_⟩
  cases b with
  | true => exact uses_bind.2 ⟨uses_catching.2 ⟨release_quiet, by simp⟩, fun _ _ => close_quiet⟩
  | false => exact close_quiet

lemma follows_tryAcquire : Follows Grip.learn Allows (fun r m => ∀ f, r = .ok (some f) → m.fence = some (n, f))
    (PgAdvisoryLock.tryAcquire n) m := by
  refine follows_bind ((follows_of_uses conn_quiet fun _ _ => allows_of_quiet).mono fun r m _ => ?_)
  cases r with
  | error e => exact fun f h => by cases h
  | ok s =>
      refine follows_await_bind trivial (fun locked => ?_) fun e f h => by cases h
      cases locked with
      | false => exact fun f h => by cases h
      | true =>
          refine follows_await_bind trivial (fun f => ?_) fun e f h => by cases h
          refine follows_bind ((follows_of_uses_keeping (J := fun m => m.fence = some (n, f)) writeLease_uses ?_ ?_
            rfl).mono fun r m hm => ?_)
          · rintro m s rfl
            trivial
          · rintro m s r rfl hm
            exact hm
          · cases r with
            | error e => exact fun f h => by cases h
            | ok u =>
                intro f' h
                obtain rfl : f = f' := by simpa using Except.ok.inj h
                exact hm

lemma follows_tick : Follows Grip.learn Allows (fun _ _ => True) (ElectionService.tick n) m := by
  refine follows_await_bind trivial (fun b => ?_) fun _ => trivial
  cases b with
  | false => trivial
  | true =>
      refine follows_bind (follows_attempt (follows_tryAcquire.mono fun r m hm => ?_))
      match r, hm with
      | .ok (some f), hm => exact follows_await (I := election) (hm f rfl) fun _ => trivial
      | .ok none, _ => trivial
      | .error _, _ => trivial

lemma follows_currentFence : Follows Grip.learn Allows (fun r m => ∀ f, r = .ok f → m.read = some f)
    (PgAdvisoryLock.currentFence n) m := by
  refine follows_bind ((follows_of_uses conn_quiet fun _ _ => allows_of_quiet).mono fun r m _ => ?_)
  cases r with
  | error e => exact fun f h => by cases h
  | ok s =>
      refine follows_await (I := election) trivial fun r f hr => ?_
      subst hr
      rfl

lemma follows_assertStillLeader : Follows Grip.learn Allows (fun _ _ => True)
    (ElectionService.assertStillLeader n) m := by
  refine follows_await_bind trivial (fun b => ?_) fun _ => trivial
  cases b with
  | false => trivial
  | true =>
      refine follows_catching (follows_bind (follows_currentFence.mono fun r m hm => ?_))
      cases r with
      | error e => trivial
      | ok f => exact follows_await (I := election) (hm f rfl) fun r => by cases r <;> trivial

lemma follows_call {e : Event} {σ σ' : State} {p : Program election Outcome}
    (h : environment e σ = some (σ', some p)) : Follows Grip.learn Allows (fun _ _ => True) p {} := by
  cases e with
  | lose s => cases (Prod.mk.inj (Option.some.inj h)).2
  | call c =>
      obtain rfl := Option.some.inj (Prod.mk.inj (Option.some.inj h)).2
      cases c with
      | tick n => exact follows_map follows_tick
      | beat n => exact follows_map (follows_of_uses beat_quiet fun _ _ => allows_of_quiet)
      | stepDown n => exact follows_map (follows_of_uses stepDown_quiet fun _ _ => allows_of_quiet)
      | onModuleDestroy n => exact follows_map (follows_of_uses onModuleDestroy_quiet fun _ _ => allows_of_quiet)
      | assertStillLeader n => exact follows_map follows_assertStillLeader

end Programs

section Steps

variable {o : Oracle} {s : Stmt} {σ σ' : State} {r : election.Reply s} {m : Grip} {i n f ses : ℕ}

lemma fence_within {α : Type} {done : α × State} (h : done.2.fence = σ.fence) : (σ.within ses done).2.fence = σ.fence := by
  unfold State.within
  split
  · exact h
  · rfl

lemma nodes_within {α : Type} {done : α × State} (h : done.2.nodes = σ.nodes) : (σ.within ses done).2.nodes = σ.nodes := by
  unfold State.within
  split
  · exact h
  · rfl

lemma tryLock_frame : (σ.tryLock ses).2.fence = σ.fence ∧ (σ.tryLock ses).2.nodes = σ.nodes := by
  unfold State.tryLock
  split
  · exact ⟨rfl, rfl⟩
  · split <;> exact ⟨rfl, rfl⟩

lemma unlock_frame : (σ.unlock ses).fence = σ.fence ∧ (σ.unlock ses).nodes = σ.nodes := by
  unfold State.unlock
  split
  · split <;> exact ⟨rfl, rfl⟩
  · exact ⟨rfl, rfl⟩

lemma bump_within : (σ.within ses (σ.fence + 1, { σ with fence := σ.fence + 1 })).2.fence = σ.fence ∨
    (σ.within ses (σ.fence + 1, { σ with fence := σ.fence + 1 })).2.fence = σ.fence + 1 := by
  unfold State.within
  split
  · exact .inr rfl
  · exact .inl rfl

lemma fence_exec (h : exec o s σ = some (r, σ')) :
    σ'.fence = σ.fence ∨ ∃ ses n, s = .bump ses n ∧ σ'.fence = σ.fence + 1 := by
  rcases exec_state h with rfl | rfl
  · exact .inl rfl
  · cases s with
    | bump ses n => exact bump_within.imp_right fun h => ⟨ses, n, rfl, h⟩
    | demote n =>
        left
        unfold perform
        dsimp only
        split <;> rfl
    | tryLock ses => exact .inl (fence_within tryLock_frame.1)
    | unlock ses => exact .inl (fence_within unlock_frame.1)
    | ping ses => exact .inl (fence_within rfl)
    | readFence ses => exact .inl (fence_within rfl)
    | _ => exact .inl rfl

lemma myFence_setNode (k : ℕ) (g : Node → Node) (hg : (g (σ.nodes k)).myFence = (σ.nodes k).myFence) :
    ((σ.setNode k g).nodes n).myFence = (σ.nodes n).myFence := by
  by_cases hn : n = k
  · subst hn
    simpa [State.setNode] using hg
  · simp [State.setNode, hn]

lemma myFence_exec (h : exec o s σ = some (r, σ')) (hf : (σ'.nodes n).myFence = some f) :
    (σ.nodes n).myFence = some f ∨ s = .promote n f := by
  rcases exec_state h with rfl | rfl
  · exact .inl hf
  · cases s with
    | promote k g =>
        by_cases hn : n = k
        · subst hn
          obtain rfl : g = f := by simpa [perform, State.setNode] using hf
          exact .inr rfl
        · exact .inl (by simpa [perform, State.setNode, hn] using hf)
    | demote k =>
        left
        unfold perform at hf
        dsimp only at hf
        split at hf
        · by_cases hn : n = k
          · simp [State.setNode, hn] at hf
          · simpa [State.setNode, hn] using hf
        · exact hf
    | stop k =>
        left
        exact (myFence_setNode k (fun v => { v with stopped := true, leader := false }) rfl).symm.trans hf
    | setClient k c =>
        left
        exact (myFence_setNode k (fun v => { v with client := c }) rfl).symm.trans hf
    | bump ses k =>
        left
        rwa [show (perform (.bump ses k) σ).2.nodes = σ.nodes from nodes_within rfl] at hf
    | tryLock ses =>
        left
        rwa [show (perform (.tryLock ses) σ).2.nodes = σ.nodes from nodes_within tryLock_frame.2] at hf
    | unlock ses =>
        left
        rwa [show (perform (.unlock ses) σ).2.nodes = σ.nodes from nodes_within unlock_frame.2] at hf
    | ping ses =>
        left
        rwa [show (perform (.ping ses) σ).2.nodes = σ.nodes from nodes_within rfl] at hf
    | readFence ses =>
        left
        rwa [show (perform (.readFence ses) σ).2.nodes = σ.nodes from nodes_within rfl] at hf
    | _ => exact .inl hf

lemma myFence_demoted {r : Except Err Bool} (h : exec o (.demote n) σ = some (r, σ')) (hl : (σ.nodes n).leader = true) :
    (σ'.nodes n).myFence = none := by
  cases o with
  | ok =>
      obtain rfl := (congrArg Prod.snd (Option.some.inj h)).symm
      simp [perform, hl, State.setNode]
  | lost | unacked => cases h

lemma fence_learn (h : exec o s σ = some (r, σ')) (hf : (m.learn s r).fence = some (n, f)) :
    m.fence = some (n, f) ∨ Hands n f (.answered i s r σ σ') := by
  unfold Grip.learn at hf
  split at hf
  · rename_i ses k g
    obtain ⟨rfl, rfl⟩ : k = n ∧ g = f := by simpa using hf
    have hp : σ.within ses (σ.fence + 1, { σ with fence := σ.fence + 1 }) = (.ok g, σ') := perform_of_ok h
    unfold State.within at hp
    split at hp
    · obtain ⟨hok, rfl⟩ := Prod.mk.inj hp
      obtain rfl := Except.ok.inj hok
      exact .inr ⟨i, ses, _, σ, _, rfl, rfl, rfl⟩
    · cases (Prod.mk.inj hp).1
  · cases hf
  · exact .inl hf
  · exact .inl hf

lemma read_learn (h : exec o s σ = some (r, σ')) (hf : (m.learn s r).read = some f) :
    m.read = some f ∨ ReadsLatest i f (.answered i s r σ σ') := by
  unfold Grip.learn at hf
  split at hf
  · exact .inl hf
  · exact .inl hf
  · rename_i ses g
    obtain rfl : g = f := by simpa using hf
    have hp : σ.within ses (σ.fence, σ) = (.ok g, σ') := perform_of_ok h
    unfold State.within at hp
    split at hp
    · exact .inr ⟨ses, σ, σ', rfl, Except.ok.inj (Prod.mk.inj hp).1⟩
    · cases (Prod.mk.inj hp).1
  · exact .inl hf

lemma myFence_of_yields {j : ℕ} (h : exec o s σ = some (r, σ')) (hy : Yields j n f (.answered i s r σ σ')) :
    (σ.nodes n).myFence = some f := by
  obtain ⟨b, a, heq⟩ := hy
  obtain ⟨-, rfl, hr, -, -⟩ := Entry.answered.inj heq
  obtain rfl := eq_of_heq hr
  have hp := perform_of_ok h
  simpa [perform] using Except.ok.inj (congrArg Prod.fst hp)

end Steps

section Runs

variable {w : ElectionWorld} {o : Oracle} {s : Stmt} {σ' : State} {r : election.Reply s} {i j n f fence : ℕ}
  {c : ElectionConfig} {x : ElectionEntry} {log : List ElectionEntry} {P : ℕ → ℕ → List ElectionEntry → Prop}

def Increasing (log : List ElectionEntry) : Prop :=
  log.Pairwise fun x y => ∀ n f m g, Hands n f x → Hands m g y → g < f

def Handed (n f : ℕ) (log : List ElectionEntry) : Prop := ∃ x ∈ log, Hands n f x

/-- Node `n` has been handed the fence `f` since it was demoted last. -/
def HandedSince (n f : ℕ) (log : List ElectionEntry) : Prop := Since (demotes n) (Hands n f) log

/-- A true answer rests on a read of the call that found the fence of the node to be the latest. -/
def Founded (x : ElectionEntry) (log : List ElectionEntry) : Prop :=
  ∀ i n f, Yields i n f x → Handed n f log ∧ ∃ y ∈ log, ReadsLatest i f y

def Renewed (x : ElectionEntry) (log : List ElectionEntry) : Prop :=
  ∀ i n f, Yields i n f x → HandedSince n f log

@[reducible] def demoted : Stmt → Option ℕ
  | .demote n => some n
  | _ => none

/-- No leader is demoted while a tick has a fence in hand for it. -/
@[reducible] def calm : ElectionRule where
  act _ _ s w := ∀ n ∈ demoted s, (w.state.nodes n).leader →
    ∀ x ∈ w.log, (grip x.call w.log).fence.map (·.1) ≠ some n
  kill _ _ := True
  env _ _ _ := True

/-- Every fence that a node has cached and every one that a call has in hand satisfies `P`. -/
structure Backed (P : ℕ → ℕ → List ElectionEntry → Prop) (w : ElectionWorld) : Prop where
  cached : ∀ n f, (w.state.nodes n).myFence = some f → P n f w.log
  gripped : ∀ i n f, (grip i w.log).fence = some (n, f) → P n f w.log

lemma Backed.answer (hw : Backed P w) (hφ : Allows (grip i w.log) s)
    (he : exec o s w.state = some (r, σ')) (hnew : ∀ n f x log, Hands n f x → P n f (x :: log))
    (hold : ∀ n f, ((σ'.nodes n).myFence = some f ∨ ∃ j, (grip j (w.answer i s r σ').log).fence = some (n, f)) →
      P n f w.log → P n f (w.answer i s r σ').log) : Backed P (w.answer i s r σ') where
  cached n f hf := by
    apply hold n f (.inl hf)
    rcases myFence_exec he hf with hb | rfl
    · exact hw.cached n f hb
    · exact hw.gripped i n f hφ
  gripped j n f hf := by
    have hback := hold n f (.inr ⟨j, hf⟩)
    rw [World.answer_log] at hf hback ⊢
    by_cases hj : i = j
    · subst hj
      rw [grip, foldBy_self] at hf
      rcases fence_learn (i := i) he hf with hb | hb
      · exact hback (hw.gripped i n f hb)
      · exact hnew n f _ _ hb
    · rw [grip, foldBy_answered hj] at hf
      exact hback (hw.gripped j n f hf)

structure Fenced (w : ElectionWorld) : Prop where
  backed : Backed Handed w
  latest : ∀ n f, Handed n f w.log → f ≤ w.state.fence
  increasing : Increasing w.log
  read : ∀ i f, (grip i w.log).read = some f → ∃ y ∈ w.log, ReadsLatest i f y
  founded : Throughout Founded w.log

lemma handed_cons (h : Handed n f log) : Handed n f (x :: log) := by
  obtain ⟨y, hy, hf⟩ := h
  exact ⟨y, List.mem_cons_of_mem x hy, hf⟩

lemma hands_after (h : Hands n f (.answered i s r w.state σ')) : w.state.fence < f ∧ σ'.fence = f := by
  obtain ⟨j, ses, r', b, a, heq, hb, ha⟩ := h
  obtain ⟨-, -, -, rfl, rfl⟩ := Entry.answered.inj heq
  exact ⟨by omega, ha⟩

lemma Fenced.answer (hw : Fenced w) (hφ : Allows (grip i w.log) s) (he : exec o s w.state = some (r, σ')) :
    Fenced (w.answer i s r σ') where
  backed := hw.backed.answer hφ he (fun n f x log h => ⟨x, List.mem_cons_self, h⟩) fun n f _ => handed_cons
  latest n f := by
    rintro ⟨x, hx, hf⟩
    rw [World.answer_log, List.mem_cons] at hx
    rw [World.answer_state]
    rcases hx with rfl | hx
    · exact Nat.le_of_eq (hands_after hf).2.symm
    · have hle := hw.latest n f ⟨x, hx, hf⟩
      rcases fence_exec he with h | ⟨_, _, _, h⟩ <;> omega
  increasing := by
    refine List.pairwise_cons.2 ⟨fun y hy n f m g hf hg => ?_, hw.increasing⟩
    exact Nat.lt_of_le_of_lt (hw.latest m g ⟨y, hy, hg⟩) (hands_after hf).1
  read j f hf := by
    rw [World.answer_log] at hf ⊢
    by_cases hj : i = j
    · subst hj
      rw [grip, foldBy_self] at hf
      rcases read_learn (i := i) he hf with hb | hb
      · obtain ⟨y, hy, hr⟩ := hw.read i f hb
        exact ⟨y, List.mem_cons_of_mem _ hy, hr⟩
      · exact ⟨_, List.mem_cons_self, hb⟩
    · rw [grip, foldBy_answered hj] at hf
      obtain ⟨y, hy, hr⟩ := hw.read j f hf
      exact ⟨y, List.mem_cons_of_mem _ hy, hr⟩
  founded := by
    refine ⟨fun j n f hy => ?_, hw.founded⟩
    obtain ⟨b, a, heq⟩ := id hy
    obtain ⟨rfl, rfl, -, -, -⟩ := Entry.answered.inj heq
    exact ⟨hw.backed.cached n f (myFence_of_yields he hy), hw.read i f hφ⟩

structure Outside (x : ElectionEntry) (w w' : ElectionWorld) : Prop where
  log : w'.log = x :: w.log
  fence : w'.state.fence = w.state.fence
  nodes : w'.state.nodes = w.state.nodes
  silent : ∀ i s r b a, x ≠ .answered i s r b a

lemma outside_move {e : Event} {a : State} {p : Option (Program election Outcome)}
    (h : environment e w.state = some (a, p)) : Outside (.moved n e w.state a) w (w.move n e a) := by
  refine ⟨rfl, ?_, ?_, nofun⟩ <;> cases e <;> cases h <;> rfl

lemma outside_kill : Outside (.killed i w.state w.state) w (w.kill i w.state) := ⟨rfl, rfl, rfl, nofun⟩

section Outside

variable {w' : ElectionWorld} (h : Outside x w w')
include h

lemma Outside.not_hands : ¬ Hands n f x := by
  rintro ⟨i, s, r, b, a, rfl, -⟩
  exact h.silent _ _ _ _ _ rfl

lemma Outside.demotes : demotes n x = false := by
  cases x with
  | answered i s r b a => exact (h.silent _ _ _ _ _ rfl).elim
  | moved | killed => rfl

lemma Outside.grip : grip i w'.log = grip i w.log := by
  rw [h.log]
  cases x with
  | answered i s r b a => exact (h.silent _ _ _ _ _ rfl).elim
  | moved | killed => rfl

lemma Outside.backed (hw : Backed P w) (hold : ∀ n f, P n f w.log → P n f (x :: w.log)) : Backed P w' := by
  constructor
  · intro n f hf
    rw [h.nodes] at hf
    rw [h.log]
    exact hold n f (hw.cached n f hf)
  · intro i n f hf
    rw [h.grip] at hf
    rw [h.log]
    exact hold n f (hw.gripped i n f hf)

lemma Outside.not_yields : ¬ Yields i n f x := by
  rintro ⟨b, a, rfl⟩
  exact h.silent _ _ _ _ _ rfl

lemma Outside.fenced (hw : Fenced w) : Fenced w' where
  backed := h.backed hw.backed fun n f => handed_cons
  latest n f := by
    rw [h.log, h.fence]
    rintro ⟨y, hy, hf⟩
    rcases List.mem_cons.1 hy with rfl | hy
    · exact (h.not_hands hf).elim
    · exact hw.latest n f ⟨y, hy, hf⟩
  increasing := by
    rw [h.log]
    exact List.pairwise_cons.2 ⟨fun y hy n f m g hf _ => (h.not_hands hf).elim, hw.increasing⟩
  read i f hf := by
    rw [h.grip] at hf
    rw [h.log]
    obtain ⟨y, hy, hr⟩ := hw.read i f hf
    exact ⟨y, List.mem_cons_of_mem _ hy, hr⟩
  founded := by
    rw [h.log]
    exact ⟨fun i n f hy => (h.not_yields hy).elim, hw.founded⟩

end Outside

/-- Where no leader is demoted over a fence in hand, every fence has been handed out since. -/
structure Calm (w : ElectionWorld) : Prop where
  backed : Backed HandedSince w
  renewed : Throughout Renewed w.log

lemma Outside.calm {w' : ElectionWorld} (h : Outside x w w') (hw : Calm w) : Calm w' where
  backed := h.backed hw.backed fun n f hs => ⟨h.demotes, .inr hs⟩
  renewed := by
    rw [h.log]
    exact ⟨fun i n f hy => (h.not_yields hy).elim, hw.renewed⟩

lemma mem_of_grip {g : ℕ × ℕ} (h : (grip i log).fence = some g) : ∃ x ∈ log, x.call = i := by
  by_contra hn
  push Not at hn
  have habsent : grip i log = {} := foldBy_of_absent fun x hx s ⟨r, b, a, hxe⟩ => hn x hx (by rw [hxe]; rfl)
  rw [habsent] at h
  cases h

lemma demotes_answered (h : demotes n (.answered i s r w.state σ') = true) :
    s = .demote n ∧ (w.state.nodes n).leader = true := by
  unfold demotes at h
  split at h
  · rename_i heq
    obtain ⟨-, rfl, -, rfl, -⟩ := Entry.answered.inj heq
    obtain ⟨rfl, hl⟩ : _ = n ∧ (w.state.nodes n).leader = true := by simpa using h
    exact ⟨rfl, hl⟩
  · cases h

/-- A demotion that comes over no fence in hand leaves none to the node. -/
lemma Calm.nothing_left (he : exec o s w.state = some (r, σ')) (hc : calm.act i o s w)
    (hd : demotes n (.answered i s r w.state σ') = true) :
    (σ'.nodes n).myFence = none ∧ ∀ j f, (grip j (w.answer i s r σ').log).fence ≠ some (n, f) := by
  obtain ⟨rfl, hl⟩ := demotes_answered hd
  refine ⟨myFence_demoted he hl, fun j f hf => ?_⟩
  have hb : (grip j w.log).fence = some (n, f) := by
    by_cases hj : i = j
    · subst hj
      rwa [World.answer_log, grip, foldBy_self] at hf
    · rwa [World.answer_log, grip, foldBy_answered hj] at hf
  obtain ⟨x, hx, rfl⟩ := mem_of_grip hb
  exact hc n rfl hl x hx (by rw [hb]; rfl)

lemma Calm.answer (hw : Calm w) (hφ : Allows (grip i w.log) s) (hc : calm.act i o s w)
    (he : exec o s w.state = some (r, σ')) : Calm (w.answer i s r σ') := by
  constructor
  · refine hw.backed.answer hφ he (fun n f x log h => ?_) fun n f hleft hs => ?_
    · refine ⟨?_, .inl h⟩
      obtain ⟨j, ses, r', b, a, rfl, -⟩ := h
      rfl
    · cases hd : demotes n (.answered i s r w.state σ') with
      | false => exact ⟨hd, .inr hs⟩
      | true =>
          obtain ⟨hnone, hgrip⟩ := Calm.nothing_left he hc hd
          rcases hleft with hf | ⟨j, hf⟩
          · rw [hnone] at hf
            cases hf
          · exact (hgrip j f hf).elim
  · exact ⟨fun j n f hy => hw.backed.cached n f (myFence_of_yields he hy), hw.renewed⟩

lemma fenced_of_reaches (h : Rule.free.Reaches system (Config.initial (.start fence)) c) : Fenced c.world := by
  have hgood : c.Good (Contract.disciplined system Grip.learn {} (fun _ => Allows) (fun _ _ _ => True) Rule.free Fenced) := by
    refine good_of_discipline ?_ ?_ ?_ ?_ ?_ h
    · exact fun n e w a p _ he => follows_call he
    · exact fun i o s w r a hw _ hφ he => hw.answer hφ he
    · exact fun n e w a p hw _ he => (outside_move he).fenced hw
    · exact fun i w hw _ => outside_kill.fenced hw
    · exact ⟨⟨nofun, nofun⟩, by simp [Handed], .nil, nofun, trivial⟩
  exact hgood.inv

lemma calm_of_reaches (h : calm.Reaches system (Config.initial (.start fence)) c) : Calm c.world := by
  have hgood : c.Good (Contract.disciplined system Grip.learn {} (fun _ => Allows) (fun _ _ _ => True) calm Calm) := by
    refine good_of_discipline ?_ ?_ ?_ ?_ ?_ h
    · exact fun n e w a p _ he => follows_call he
    · exact fun i o s w r a hw hc hφ he => hw.answer hφ hc he
    · exact fun n e w a p hw _ he => (outside_move he).calm hw
    · exact fun i w hw _ => outside_kill.calm hw
    · exact ⟨⟨nofun, nofun⟩, trivial⟩
  exact hgood.inv

/-- A node whose cached fence is the latest is the one that it was handed to last. -/
def Sole (σ : State) (log : List ElectionEntry) : Prop :=
  ∀ n, (σ.nodes n).myFence = some σ.fence → Handed n σ.fence log ∧ ∀ m, Handed m σ.fence log → m = n

lemma Fenced.one_node (hw : Fenced w) (hn : Handed n f w.log) (hm : Handed j f w.log) : j = n := by
  obtain ⟨x, hx, hfx⟩ := hn
  obtain ⟨y, hy, hfy⟩ := hm
  have hself : ∀ z ∈ w.log, ∀ f n m, Hands n f z → Hands m f z → m = n := by
    rintro z - f n m ⟨_, _, _, _, _, rfl, -⟩ ⟨_, _, _, _, _, heq, -⟩
    obtain ⟨-, hs, -⟩ := Entry.answered.inj heq
    cases hs
    rfl
  have hpair : w.log.Pairwise fun x y => ∀ f n m, Hands n f x → Hands m f y → m = n :=
    hw.increasing.imp fun h f n m hf hg => (Nat.lt_irrefl f (h n f m f hf hg)).elim
  have hflip : w.log.Pairwise (flip fun x y => ∀ f n m, Hands n f x → Hands m f y → m = n) :=
    hw.increasing.imp fun h f n m hf hg => (Nat.lt_irrefl f (h m f n f hg hf)).elim
  exact hpair.forall_of_forall_of_flip hself hflip hx hy f n j hfx hfy

lemma Fenced.sole (hw : Fenced w) : Sole w.state w.log := fun n hn =>
  ⟨hw.backed.cached n _ hn, fun _ hm => hw.one_node (hw.backed.cached n _ hn) hm⟩

/-- The fences are handed out in increasing order, the node whose cached fence is the latest is the one that was
handed it, and a true answer rests on the fence of the node being the latest when the call read it. A node that
was demoted leads again by a fence that it has been handed since, where it was demoted over none in hand. -/
theorem fences_hold (h : Rule.free.Reaches system (Config.initial (.start fence)) c) :
    Increasing c.world.log ∧ Sole c.world.state c.world.log ∧ Throughout Founded c.world.log ∧
      (calm.Reaches system (Config.initial (.start fence)) c → Throughout Renewed c.world.log) :=
  have hw := fenced_of_reaches h
  ⟨hw.increasing, hw.sole, hw.founded, fun hc => (calm_of_reaches hc).renewed⟩

end Runs

section Scenario

def acts (i n : ℕ) : List (Machine.Label Event Oracle) := List.replicate n (.act i .ok)

def again : List (Machine.Label Event Oracle) :=
  .env (.call (.tick 0)) :: acts 0 8 ++ .env (.call (.stepDown 0)) :: acts 1 8 ++
    .env (.call (.tick 0)) :: acts 2 8 ++ .env (.call (.assertStillLeader 0)) :: acts 3 4

/-- A second tick of node 0 takes the lock once more, and promotes the node after the first has and the node has
stepped down. -/
def late : List (Machine.Label Event Oracle) :=
  [.env (.call (.tick 0)), .env (.call (.tick 0))] ++ acts 0 4 ++ acts 1 2 ++ acts 0 2 ++ acts 1 2 ++ acts 0 2 ++
    .env (.call (.stepDown 0)) :: acts 2 8 ++ acts 1 2 ++ .env (.call (.assertStillLeader 0)) :: acts 3 6

def after (ls : List (Machine.Label Event Oracle)) : ElectionConfig :=
  (system.run (Config.initial (.start 0)) ls).getD (Config.initial (.start 0))

lemma after_reaches {R : ElectionRule} {ls : List (Machine.Label Event Oracle)}
    (hR : R.Obeys system (Config.initial (.start 0)) ls)
    (h : (system.run (Config.initial (.start 0)) ls).isSome = true) :
    R.Reaches system (Config.initial (.start 0)) (after ls) := by
  obtain ⟨c, hc⟩ := Option.isSome_iff_exists.1 h
  rw [after, hc]
  exact Rule.reaches_of_run hR hc

def handsOut (n f : ℕ) : ElectionEntry → Bool
  | .answered _ (.bump _ m) _ b a => m = n && b.fence + 1 = f && a.fence = f
  | _ => false

lemma handsOut_of_hands {n f : ℕ} {x : ElectionEntry} (h : Hands n f x) : handsOut n f x = true := by
  obtain ⟨i, ses, r, b, a, rfl, hb, ha⟩ := h
  simp [handsOut, hb, ha]

lemma not_since {stop : ElectionEntry → Bool} {n f : ℕ} {log : List ElectionEntry}
    (h : ¬ Since stop (fun x => handsOut n f x = true) log) : ¬ Since stop (Hands n f) log :=
  fun hs => h (hs.mono fun _ => handsOut_of_hands)

def yieldsTrue (i n f : ℕ) : ElectionEntry → Bool
  | .answered j (.isMyFence m g) (.ok true) _ _ => j = i && m = n && g = f
  | _ => false

lemma yields_of_yieldsTrue {i n f : ℕ} {x : ElectionEntry} (h : yieldsTrue i n f x = true) : Yields i n f x := by
  unfold yieldsTrue at h
  split at h
  · simp only [Bool.and_eq_true, decide_eq_true_eq] at h
    obtain ⟨⟨rfl, rfl⟩, rfl⟩ := h
    exact ⟨_, _, rfl⟩
  · cases h

lemma late_log : (after late).world.log ≠ [] := by decide +kernel

/-- Node 0 is handed the second fence while the first one is on its way to it. -/
theorem late_promotion : Rule.free.Reaches system (Config.initial (.start 0)) (after late) ∧
    ∃ x log, (after late).world.log = x :: log ∧ Yields 3 0 2 x ∧ (∃ y ∈ log, demotes 0 y = true) ∧
      ¬ HandedSince 0 2 log := by
  refine ⟨after_reaches Rule.obeys_free (by decide +kernel), ?_⟩
  exact ⟨_, _, (List.cons_head_tail late_log).symm, yields_of_yieldsTrue (by decide +kernel), by decide +kernel,
    not_since (by decide +kernel)⟩

/-- A node that steps down and leads again does so by a fence of its own. -/
theorem leads_again : Rule.free.Reaches system (Config.initial (.start 0)) (after again) ∧
    Throughout Renewed (after again).world.log :=
  have hfree : Rule.free.Reaches system _ (after again) := after_reaches Rule.obeys_free (by decide +kernel)
  ⟨hfree, (fences_hold hfree).2.2.2 (after_reaches (by decide +kernel) (by decide +kernel))⟩

end Scenario

end VaultRun.Safety.Fencing
