import VaultRun.Gateway.Service

/-!
The clocks of a session on one socket: the time limit trips once, at the first sweep that finds it reached, and the
reality checks keep their interval from each other and from the acknowledgements.
-/

namespace VaultRun.Safety.SessionClock

open VaultRun.Gateway VaultRun.Data

def connected (rg : EffectiveRg) (sessionStartedAt : ℕ) (pending : Bool) (dueAt : Option ℕ) : RgSocketState where
  rg := rg
  sessionStartedAt := sessionStartedAt
  rgRealityDueAt := dueAt.orElse fun _ => rg.firstDue sessionStartedAt
  rgPending := pending
  rgTimeLimitNotified := false

def decided (s : RgSocketState) (d : RgDecision) : RgSocketState :=
  { s with
    rgRealityDueAt := d.nextDueAt
    rgPending := d.nextPending
    rgTimeLimitNotified := d.nextTimeLimitNotified }

def acknowledged (s : RgSocketState) (now : ℕ) : RgSocketState :=
  { s with
    rgPending := false
    rgRealityDueAt := (s.rg.realityCheckIntervalSec.map fun sec => now + sec * 1000).orElse fun _ => s.rgRealityDueAt }

section Socket

variable {p : Params} {x : Socket} {s k : ℕ} {st : RgSocketState} {d : RgDecision} {σ : Gateway.State}

lemma rgState_eq (h : x.rgState p = some (s, st)) : ∃ rg, x.rg p = some (s, rg) ∧
    st = ⟨rg, (p.play s).sessionStartedAt, x.rgRealityDueAt, x.rgPending = some true, x.rgTimeLimitNotified⟩ := by
  obtain ⟨⟨s', rg⟩, hrg, heq⟩ := Option.map_eq_some_iff.1 h
  obtain ⟨rfl, rfl⟩ := Prod.mk.inj heq
  exact ⟨rg, hrg, rfl⟩

lemma rgState_decided (h : x.rgState p = some (s, st)) : (x.decided d).rgState p = some (s, decided st d) := by
  obtain ⟨rg, hrg, rfl⟩ := rgState_eq h
  have hrg' : (x.decided d).rg p = some (s, rg) := hrg
  rw [Socket.rgState, hrg', Option.map_some]
  simp [decided, Socket.decided]

lemma rgState_acknowledge (hrow : σ.sockets.row k = some x) (hconnected : x.connected = true)
    (h : x.rgState p = some (s, st)) :
    ((σ.acknowledge p k).2.sockets.row k).bind (·.rgState p) = some (s, acknowledged st σ.now) := by
  obtain ⟨rg, hrg, rfl⟩ := rgState_eq h
  have htoken : (σ.tokenOf k).bind (·.rg p) = some (s, rg) := by
    rw [State.tokenOf, hrow, Option.filter_some_pos hconnected]
    exact hrg
  rw [State.acknowledge, htoken]
  dsimp only
  rw [State.setSocket, Table.row_updateMany, hrow]
  simp only [Option.map_some, decide_true, if_true, Option.bind_some, Socket.rgState]
  have hrg' (due : Option ℕ) : Socket.rg p { x with rgPending := some false, rgRealityDueAt := due } = some (s, rg) := hrg
  rw [hrg']
  simp [acknowledged, State.ackDue]

lemma rgState_restore {rg : EffectiveRg} {pending : Bool} {dueAt : Option ℕ} (hrow : σ.sockets.row k = some x)
    (hrg : x.rg p = some (s, rg)) (hnotified : x.rgTimeLimitNotified = false) :
    ((σ.restore p k pending dueAt).sockets.row k).bind (·.rgState p) =
      some (s, connected rg (p.play s).sessionStartedAt pending dueAt) := by
  rw [State.restore, State.setSocket, Table.row_updateMany, hrow]
  simp only [Option.map_some, decide_true, if_true, Option.bind_some, Socket.rgState]
  have hrg' (due : Option ℕ) : Socket.rg p { x with rgPending := some pending, rgRealityDueAt := due } = some (s, rg) :=
    hrg
  rw [hrg', hrg]
  simp [connected, hnotified]

end Socket

inductive Event
  | sweep (now : ℕ)
  | ack (now : ℕ)

def Event.time : Event → ℕ
  | .sweep now | .ack now => now

def advance (s : RgSocketState) : Option Event → RgSocketState
  | some (.sweep now) => decided s (rgEvaluate s now)
  | some (.ack now) => acknowledged s now
  | none => s

/-- A session on one socket: its controls, what the connection restores, and finitely or infinitely many events. The
sweeps come in the order of their times, and an acknowledgement is at no earlier time than what it follows; a sweep
may have read its time before an acknowledgement that it meets. -/
structure Run where
  rg : EffectiveRg
  sessionStartedAt : ℕ
  pending : Bool
  dueAt : Option ℕ
  events : ℕ → Option Event
  sweep_le : ∀ {m n t t'}, m < n → events m = some (.sweep t) → events n = some (.sweep t') → t ≤ t'
  ack_le : ∀ {m n e a}, m < n → events m = some e → events n = some (.ack a) → e.time ≤ a

namespace Run

def state (r : Run) : ℕ → RgSocketState
  | 0 => connected r.rg r.sessionStartedAt r.pending r.dueAt
  | n + 1 => advance (r.state n) (r.events n)

def Trips (r : Run) (n : ℕ) : Prop :=
  ∃ t, r.events n = some (.sweep t) ∧ (rgEvaluate (r.state n) t).tripTimeLimit = true

def Checks (r : Run) (n t : ℕ) : Prop :=
  r.events n = some (.sweep t) ∧ (rgEvaluate (r.state n) t).emitRealityCheck = true

def Reached (r : Run) (n : ℕ) : Prop :=
  ∃ t, r.events n = some (.sweep t) ∧ r.rg.over r.sessionStartedAt t = true

end Run

section Step

variable {s : RgSocketState} {now : ℕ}

inductive Decides (s : RgSocketState) (now : ℕ) (d : RgDecision) : Prop
  | limit (h : s.rg.over s.sessionStartedAt now = true)
      (eq : d = ⟨false, !s.rgTimeLimitNotified, s.rgRealityDueAt, s.rgPending, true⟩)
  | check {sec due : ℕ} (h : s.rg.over s.sessionStartedAt now = false)
      (interval : s.rg.realityCheckIntervalSec = some sec) (at_ : s.rgRealityDueAt = some due) (le : due ≤ now)
      (eq : d = ⟨true, false, some (now + sec * 1000), if s.rg.enforceRealityCheck then true else s.rgPending,
        s.rgTimeLimitNotified⟩)
  | nothing (h : s.rg.over s.sessionStartedAt now = false)
      (early : ∀ sec due, s.rg.realityCheckIntervalSec = some sec → s.rgRealityDueAt = some due → now < due)
      (eq : d = ⟨false, false, s.rgRealityDueAt, s.rgPending, s.rgTimeLimitNotified⟩)

lemma rgEvaluate_decides (s : RgSocketState) (now : ℕ) : Decides s now (rgEvaluate s now) := by
  rw [rgEvaluate]
  cases hover : s.rg.over s.sessionStartedAt now with
  | true => exact .limit hover rfl
  | false =>
      cases hinterval : s.rg.realityCheckIntervalSec with
      | none => exact .nothing hover (by simp [hinterval]) rfl
      | some interval =>
          cases hdue : s.rgRealityDueAt with
          | none => exact .nothing hover (by simp [hdue]) (by simp [hdue])
          | some due =>
              by_cases hle : due ≤ now
              · exact .check hover hinterval hdue hle (by simp [hle])
              · refine .nothing hover ?_ (by simp [hle, hdue])
                intro sec due' _ hdue'
                obtain rfl := Option.some.inj (hdue.symm.trans hdue')
                exact Nat.lt_of_not_le hle

lemma trip_iff : (rgEvaluate s now).tripTimeLimit = true ↔
    s.rg.over s.sessionStartedAt now = true ∧ s.rgTimeLimitNotified = false := by
  cases rgEvaluate_decides s now with
  | limit h heq => simp [heq, h]
  | check h hinterval hdue hle heq => simp [heq, h]
  | nothing h hearly heq => simp [heq, h]

lemma notified_iff : (decided s (rgEvaluate s now)).rgTimeLimitNotified = true ↔
    s.rgTimeLimitNotified = true ∨ s.rg.over s.sessionStartedAt now = true := by
  cases rgEvaluate_decides s now with
  | limit h heq => simp [decided, heq, h]
  | check h hinterval hdue hle heq => simp [decided, heq, h]
  | nothing h hearly heq => simp [decided, heq, h]

lemma check_iff : (rgEvaluate s now).emitRealityCheck = true ↔ s.rg.over s.sessionStartedAt now = false ∧
    ∃ sec due, s.rg.realityCheckIntervalSec = some sec ∧ s.rgRealityDueAt = some due ∧ due ≤ now := by
  cases rgEvaluate_decides s now with
  | limit h heq => simp [heq, h]
  | check h hinterval hdue hle heq => simp [heq, h, hinterval, hdue, hle]
  | nothing h hearly heq =>
      simp only [heq, h, true_and, Bool.false_eq_true, false_iff]
      rintro ⟨sec, due, hsec, hdue, hle⟩
      exact absurd hle (Nat.not_le.2 (hearly sec due hsec hdue))

lemma pending_decided : (decided s (rgEvaluate s now)).rgPending = true ↔
    s.rgPending = true ∨ (rgEvaluate s now).emitRealityCheck = true ∧ s.rg.enforceRealityCheck = true := by
  cases rgEvaluate_decides s now with
  | limit h heq => simp [decided, heq]
  | check h hinterval hdue hle heq => simp [decided, heq, or_comm]
  | nothing h hearly heq => simp [decided, heq]

end Step

namespace Run

variable {r : Run} {n m t sec : ℕ}

lemma state_session (r : Run) (n : ℕ) : (r.state n).rg = r.rg ∧ (r.state n).sessionStartedAt = r.sessionStartedAt := by
  induction n with
  | zero => exact ⟨rfl, rfl⟩
  | succ n ih =>
      rw [state]
      cases r.events n with
      | none => exact ih
      | some e => cases e <;> exact ih

lemma over_state (r : Run) (n t : ℕ) :
    (r.state n).rg.over (r.state n).sessionStartedAt t = r.rg.over r.sessionStartedAt t := by
  obtain ⟨hrg, hstart⟩ := r.state_session n
  rw [hrg, hstart]

lemma notified_state (r : Run) (n : ℕ) : (r.state n).rgTimeLimitNotified = true ↔ ∃ m < n, r.Reached m := by
  induction n with
  | zero => simp [state, connected]
  | succ n ih =>
      have hsplit : (∃ m < n + 1, r.Reached m) ↔ (∃ m < n, r.Reached m) ∨ r.Reached n := by
        constructor
        · rintro ⟨m, hm, h⟩
          rcases Nat.lt_succ_iff_lt_or_eq.1 hm with hm | rfl
          · exact .inl ⟨m, hm, h⟩
          · exact .inr h
        · rintro (⟨m, hm, h⟩ | h)
          · exact ⟨m, Nat.lt_succ_of_lt hm, h⟩
          · exact ⟨n, Nat.lt_succ_self n, h⟩
      rw [hsplit, ← ih, state]
      cases he : r.events n with
      | none => simp [advance, Reached, he]
      | some e =>
          cases e with
          | ack a => simp [advance, acknowledged, Reached, he]
          | sweep t =>
              rw [advance, notified_iff, over_state]
              simp [Reached, he]

lemma trips_iff (r : Run) (n : ℕ) : r.Trips n ↔ r.Reached n ∧ ∀ m < n, ¬ r.Reached m := by
  have hnotified : (r.state n).rgTimeLimitNotified = false ↔ ∀ m < n, ¬ r.Reached m := by
    rw [← Bool.not_eq_true, notified_state, not_exists]
    exact forall_congr' fun m => not_and
  constructor
  · rintro ⟨t, ht, htrip⟩
    obtain ⟨hover, hfresh⟩ := trip_iff.1 htrip
    rw [over_state] at hover
    exact ⟨⟨t, ht, hover⟩, hnotified.1 hfresh⟩
  · rintro ⟨⟨t, ht, hover⟩, hfirst⟩
    refine ⟨t, ht, trip_iff.2 ⟨?_, hnotified.2 hfirst⟩⟩
    rw [over_state]
    exact hover

lemma over_mono {rg : EffectiveRg} {start t t' : ℕ} (h : t ≤ t') (hover : rg.over start t = true) :
    rg.over start t' = true := by
  rw [EffectiveRg.over, Option.any_eq_true] at hover ⊢
  obtain ⟨sec, hsec, hle⟩ := hover
  exact ⟨sec, hsec, decide_eq_true (Nat.le_trans (of_decide_eq_true hle) h)⟩

lemma not_checks_of_reached (hm : r.Reached m) (hle : m ≤ n) : ¬ r.Checks n t := by
  rintro ⟨ht, hcheck⟩
  obtain ⟨t₀, ht₀, hover⟩ := hm
  have htime : t₀ ≤ t := by
    rcases Nat.lt_or_eq_of_le hle with hlt | rfl
    · exact r.sweep_le hlt ht₀ ht
    · obtain rfl : t₀ = t := by simpa using ht₀.symm.trans ht
      exact Nat.le_refl _
  have hopen := (check_iff.1 hcheck).1
  rw [over_state, over_mono htime hover] at hopen
  cases hopen

def Restarts (r : Run) (n t : ℕ) : Prop := r.Checks n t ∨ r.events n = some (.ack t)

lemma event_of_restarts (h : r.Restarts m t) : ∃ e, r.events m = some e ∧ e.time = t := by
  rcases h with ⟨h, -⟩ | h
  · exact ⟨_, h, rfl⟩
  · exact ⟨_, h, rfl⟩

lemma not_restarts_of_quiet {now : ℕ} (he : r.events n = some (.sweep now))
    (hquiet : (rgEvaluate (r.state n) now).emitRealityCheck = false) : ¬ r.Restarts n t := by
  rintro (⟨h, hcheck⟩ | h)
  · obtain rfl : now = t := by simpa using he.symm.trans h
    rw [hquiet] at hcheck
    cases hcheck
  · rw [he] at h
    cases h

lemma due_state (hsec : r.rg.realityCheckIntervalSec = some sec) (n : ℕ) :
    ∀ m < n, ∀ t, r.Restarts m t → ∃ due, (r.state n).rgRealityDueAt = some due ∧ t + sec * 1000 ≤ due := by
  induction n with
  | zero => intro m hm; exact absurd hm (Nat.not_lt_zero m)
  | succ n ih =>
      intro m hm t hrestart
      have hinterval : (r.state n).rg.realityCheckIntervalSec = some sec := by rw [(r.state_session n).1, hsec]
      rw [state]
      cases he : r.events n with
      | none =>
          rcases Nat.lt_succ_iff_lt_or_eq.1 hm with hm | rfl
          · exact ih m hm t hrestart
          · rcases hrestart with ⟨h, -⟩ | h <;> rw [he] at h <;> cases h
      | some e =>
          cases e with
          | ack a =>
              refine ⟨a + sec * 1000, by simp [advance, acknowledged, hinterval], ?_⟩
              obtain ⟨e, hem, rfl⟩ := event_of_restarts hrestart
              have htime : e.time ≤ a := by
                rcases Nat.lt_succ_iff_lt_or_eq.1 hm with hm | rfl
                · exact r.ack_le hm hem he
                · obtain rfl : e = .ack a := Option.some.inj (hem.symm.trans he)
                  exact Nat.le_refl _
              omega
          | sweep now =>
              have hold (hm : m < n) := ih m hm t hrestart
              have hnew (hquiet : (rgEvaluate (r.state n) now).emitRealityCheck = false) : m < n :=
                (Nat.lt_succ_iff_lt_or_eq.1 hm).resolve_right fun heq => not_restarts_of_quiet he hquiet (heq ▸ hrestart)
              rw [advance]
              cases rgEvaluate_decides (r.state n) now with
              | limit h heq => simpa [decided, heq] using hold (hnew (by rw [heq]))
              | nothing h hearly heq => simpa [decided, heq] using hold (hnew (by rw [heq]))
              | check h hinterval' hdue hle heq =>
                  obtain rfl := Option.some.inj (hinterval.symm.trans hinterval')
                  refine ⟨now + sec * 1000, by rw [decided, heq], ?_⟩
                  rcases Nat.lt_succ_iff_lt_or_eq.1 hm with hm | rfl
                  · obtain ⟨due, hdue', hle'⟩ := hold hm
                    obtain rfl := Option.some.inj (hdue.symm.trans hdue')
                    omega
                  · obtain ⟨e, hem, rfl⟩ := event_of_restarts hrestart
                    obtain rfl : e = .sweep now := Option.some.inj (hem.symm.trans he)
                    exact Nat.le_refl _

/-- An interval lies between what starts the clock and a later check. -/
lemma apart (hsec : r.rg.realityCheckIntervalSec = some sec) {t' : ℕ} (hlt : m < n) (hrestart : r.Restarts m t)
    (hcheck : r.Checks n t') : t + sec * 1000 ≤ t' := by
  obtain ⟨due, hdue, hle⟩ := due_state hsec n m hlt t hrestart
  obtain ⟨-, sec', due', -, hdue', hnow⟩ := check_iff.1 hcheck.2
  obtain rfl := Option.some.inj (hdue.symm.trans hdue')
  exact Nat.le_trans hle hnow

lemma pending_succ (r : Run) (n : ℕ) : (r.state (n + 1)).rgPending = true ↔
    (∀ a, r.events n ≠ some (.ack a)) ∧
      ((r.state n).rgPending = true ∨ (∃ t, r.Checks n t) ∧ r.rg.enforceRealityCheck = true) := by
  rw [state]
  cases he : r.events n with
  | none => simp [advance, Checks, he]
  | some e =>
      cases e with
      | ack a => simp [advance, acknowledged]
      | sweep t =>
          rw [advance, pending_decided, (r.state_session n).1]
          simp [Checks, he]

end Run

/-- On one socket of a session the time limit trips at the first sweep that finds it reached and at no other, no
reality check is emitted from there on, a check is at least an interval after every check and acknowledgement before
it, and the pause is put on by a check where it is enforced, and lifted by an acknowledgement, and by nothing else. -/
theorem session_clock (r : Run) :
    (∀ n, r.Trips n ↔ r.Reached n ∧ ∀ m < n, ¬ r.Reached m) ∧
    (∀ m n t, r.Trips m → m ≤ n → ¬ r.Checks n t) ∧
    (∀ sec, r.rg.realityCheckIntervalSec = some sec → ∀ m n t t', m < n → r.Restarts m t → r.Checks n t' →
      t + sec * 1000 ≤ t') ∧
    (∀ n t, r.Checks n t → (r.state n).rgPending = false →
      ((r.state (n + 1)).rgPending = true ↔ r.rg.enforceRealityCheck = true)) ∧
    (∀ n, (r.state n).rgPending = false → (r.state (n + 1)).rgPending = true → ∃ t, r.Checks n t) ∧
    (∀ n, (r.state n).rgPending = true → ((r.state (n + 1)).rgPending = false ↔ ∃ a, r.events n = some (.ack a))) := by
  refine ⟨r.trips_iff, ?_, ?_, ?_, ?_, ?_⟩
  · intro m n t htrip hle
    exact Run.not_checks_of_reached ((r.trips_iff m).1 htrip).1 hle
  · intro sec hsec m n t t' hlt hrestart hcheck
    exact Run.apart hsec hlt hrestart hcheck
  · intro n t hcheck hpending
    have hack : ∀ a, r.events n ≠ some (.ack a) := by
      intro a ha
      rw [hcheck.1] at ha
      cases ha
    have hchecks : ∃ t, r.Checks n t := ⟨t, hcheck⟩
    rw [r.pending_succ n]
    simp [hack, hpending, hchecks]
  · intro n hpending hnext
    obtain ⟨-, hold | hcheck⟩ := (r.pending_succ n).1 hnext
    · rw [hpending] at hold
      cases hold
    · exact hcheck.1
  · intro n hpending
    rw [← Bool.not_eq_true, r.pending_succ n]
    simp [hpending]

def checkAckCheck (n : ℕ) : Option Event := [Event.sweep 60000, .ack 70000, .sweep 130000][n]?

lemma checkAckCheck_time {m n : ℕ} {e e' : Event} (hlt : m < n) (hm : checkAckCheck m = some e)
    (hn : checkAckCheck n = some e') : e.time ≤ e'.time := by
  obtain ⟨hbound, -⟩ := List.getElem?_eq_some_iff.1 hn
  rw [List.length_cons, List.length_cons, List.length_cons, List.length_nil] at hbound
  obtain ⟨rfl, rfl⟩ | ⟨rfl, rfl⟩ | ⟨rfl, rfl⟩ : m = 0 ∧ n = 1 ∨ m = 0 ∧ n = 2 ∨ m = 1 ∧ n = 2 := by omega
  all_goals
    cases hm
    cases hn
    decide

def acknowledgedRun : Run where
  rg := ⟨some 60, none, true⟩
  sessionStartedAt := 0
  pending := false
  dueAt := none
  events := checkAckCheck
  sweep_le := checkAckCheck_time
  ack_le := checkAckCheck_time

/-- The acknowledgement lifts the pause that the first check has put on, and the second is due a minute after it. -/
example : acknowledgedRun.Checks 0 60000 ∧ (acknowledgedRun.state 1).rgPending = true ∧
    (acknowledgedRun.state 2).rgPending = false ∧ acknowledgedRun.Checks 2 130000 :=
  ⟨⟨rfl, rfl⟩, rfl, rfl, rfl, rfl⟩

end VaultRun.Safety.SessionClock
