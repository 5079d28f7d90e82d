import IotIde.Mqtt.Session

/-!
# Giving up and connecting again

When the thread that receives gives a connection up, and when it tries to connect.

* `lost_after_heartbeats` — a connection is given up only behind more heartbeats than may be lost;
* `attempts_spaced` — the attempts of `_core_mqtt_reconnect` keep the distance of the backoff;
* `attempts_after_disconnect` — after `aiot_mqtt_disconnect` there is one more attempt at most;
* `can_reconnect` — until then the receiver can connect again, wherever the threads stand.
-/

namespace IotIde

open CText Frames Runs

variable {config : SessionConfig}

/-! ## Heartbeats -/

/-- The options as the application leaves them, with a random part of half a second less. -/
def defaultConfig : SessionConfig := ⟨⟨[99], [117], [112], 1200, 1⟩, 25000, 2, true, 2000, -500⟩

/-- How many of the last attempts failed. -/
def failures : List Attempt → ℕ
  | [] => 0
  | attempt :: attempts => if attempt.success then 0 else failures attempts + 1

/-- The delay behind so many attempts that failed. -/
def SessionConfig.backoff (config : SessionConfig) (failed : ℕ) : ℤ :=
  config.reconnectIntervalMs * (min failed CORE_MQTT_DEFAULT_RECONN_MAX_COUNTERS + 1) + config.randMs

/-- The delays are not negative, and fit 32 bits. -/
def SessionConfig.Sane (config : SessionConfig) : Prop :=
  0 ≤ config.reconnectIntervalMs + config.randMs ∧
    config.reconnectIntervalMs * 61 + config.randMs < 2 ^ 32

instance (config : SessionConfig) : Decidable config.Sane := inferInstanceAs (Decidable (_ ∧ _))

/-- The clock does not go back, and does not overflow. -/
def Timely (s : Session) : SessionEvent → Prop
  | .recvAttempt now stop _ => s.reconnect.lastRetryTime ≤ now ∧ now ≤ stop ∧ stop < 2 ^ 63
  | _ => True

instance (s : Session) : ∀ e, Decidable (Timely s e)
  | .recvAttempt _ _ _ => inferInstanceAs (Decidable (_ ∧ _ ∧ _))
  | .tell _ | .recvBegin | .recvClosed | .recvReconnect | .recvCheck | .recvLinked | .recvBeat
  | .recvLost | .recvRelink _ | .recvRead _ | .recvClose | .processBeat _ | .processSend
  | .processCount | .writeFails | .appConnect | .appLink _ | .appDisconnect | .appClose
  | .appNotice => isTrue trivial

/-- What a step does with the attempts. -/
theorem Session.reconnect_of_step {s s' : Session} {e : SessionEvent} (h : s.step e = some s')
    (htimely : Timely s e) :
    s'.reconnect = s.reconnect ∨ ∃ now stop res, stop < 2 ^ 63 ∧
      (s.reconnect.lastRetryTime + s.reconnect.delay) % 2 ^ 64 ≤ now ∧
        s'.reconnect = s.reconnect.next now stop res := by
  cases e with
  | recvAttempt now stop env =>
    simp only [step] at h
    split_ifs at h
    cases h
    obtain ⟨hlast, -, hlt⟩ := htimely
    rw [recvAttempt]
    simp only [if_neg (not_lt.2 hlast)]
    split_ifs with htime
    · exact Or.inr ⟨now, stop, _, hlt, htime, rfl⟩
    · exact Or.inl rfl
  | recvBeat =>
    simp only [step] at h
    split_ifs at h
    cases h
    rw [recvBeat]
    split_ifs <;> exact Or.inl rfl
  | recvRead mallocOk =>
    simp only [step] at h
    split_ifs at h
    cases h
    rw [recvRead]
    split
    · exact Or.inl rfl
    · split <;> exact Or.inl rfl
  | processSend =>
    obtain ⟨now, -, rfl⟩ := processSend_of_step h
    exact Or.inl rfl
  | processCount =>
    obtain ⟨now, -, rfl⟩ := processCount_of_step h
    exact Or.inl rfl
  | writeFails =>
    cases h
    exact Or.inl rfl
  | _ =>
    simp only [step] at h
    split_ifs at h <;> cases h
    all_goals exact Or.inl rfl

/-- The counter and the time are those of the attempts, which keep their distance. -/
structure Reconnect.Wf (config : SessionConfig) (r : Reconnect) : Prop where
  intervalMs : r.intervalMs = config.reconnectIntervalMs
  backoffEnabled : r.backoffEnabled = true
  randMs : r.randMs = config.randMs
  counter : r.reconnectCounter = min (failures r.attempts) CORE_MQTT_DEFAULT_RECONN_MAX_COUNTERS
  lastRetryTime : r.lastRetryTime < 2 ^ 63 ∧ ∀ a ∈ r.attempts.head?, a.stop = r.lastRetryTime
  spaced : ∀ a b attempts, a :: b :: attempts <:+ r.attempts →
    b.stop + config.backoff (failures (b :: attempts)) ≤ a.start

theorem SessionConfig.Sane.backoff (hsane : config.Sane) (failed : ℕ) :
    0 ≤ config.backoff failed ∧ config.backoff failed < 2 ^ 32 := by
  obtain ⟨hnonneg, hlt⟩ := hsane
  have hmin : min failed CORE_MQTT_DEFAULT_RECONN_MAX_COUNTERS ≤ 60 := min_le_right _ _
  rw [SessionConfig.backoff]
  generalize min failed CORE_MQTT_DEFAULT_RECONN_MAX_COUNTERS = k at hmin ⊢
  constructor <;> nlinarith

theorem Reconnect.Wf.delay_eq {r : Reconnect} (h : r.Wf config) (hsane : config.Sane) :
    (r.delay : ℤ) = config.backoff (failures r.attempts) := by
  obtain ⟨hnonneg, hlt⟩ := hsane.backoff (failures r.attempts)
  rw [Reconnect.delay, if_pos h.backoffEnabled, h.intervalMs, h.counter, h.randMs]
  have heq : (config.reconnectIntervalMs * ((min (failures r.attempts)
      CORE_MQTT_DEFAULT_RECONN_MAX_COUNTERS : ℕ) + 1) + config.randMs : ℤ) =
        config.backoff (failures r.attempts) := rfl
  rw [heq, Int.emod_eq_of_lt hnonneg hlt, Int.toNat_of_nonneg hnonneg]

theorem Reconnect.Wf.next {r : Reconnect} (h : r.Wf config) (hsane : config.Sane) {now stop : ℕ}
    (res : ℤ) (hlt : stop < 2 ^ 63) (htime : (r.lastRetryTime + r.delay) % 2 ^ 64 ≤ now) :
    (r.next now stop res).Wf config := by
  refine ⟨h.intervalMs, h.backoffEnabled, h.randMs, ?_, ⟨hlt, by simp [Reconnect.next]⟩, ?_⟩
  · have hcounter := h.counter
    simp only [Reconnect.next, if_pos h.backoffEnabled, failures, decide_eq_true_eq]
    by_cases hres : res = STATE_MQTT_CONNECT_SUCCESS
    · rw [if_pos hres, if_pos hres]
      rfl
    · rw [if_neg hres, if_neg hres]
      split_ifs <;> omega
  · intro a b attempts hsuffix
    rw [Reconnect.next, List.suffix_cons_iff] at hsuffix
    rcases hsuffix with heq | hsuffix
    · obtain ⟨rfl, hattempts⟩ := List.cons.inj heq
      have hdelay := h.delay_eq hsane
      have hbound := (hsane.backoff (failures r.attempts)).2
      have hlast := h.lastRetryTime
      rw [← hattempts] at hdelay hbound hlast
      have hstop : b.stop = r.lastRetryTime := hlast.2 b rfl
      rw [Nat.mod_eq_of_lt (by omega)] at htime
      rw [← hdelay, hstop]
      exact_mod_cast htime
    · exact h.spaced a b attempts hsuffix

theorem reconnectWf_of_reachable (hsane : config.Sane) {s : Session}
    (hs : (sessionMachine config).ReachableVia Timely s) : s.reconnect.Wf config := by
  refine Machine.invariant (P := fun s => s.reconnect.Wf config) ?_ ?_ s hs
  · rintro s rfl
    exact ⟨rfl, rfl, rfl, rfl, ⟨by norm_num [Session.new], by simp [Session.new]⟩,
      fun a b attempts h => by simp [Session.new] at h⟩
  · intro s e s' hwf htimely hstep
    rcases Session.reconnect_of_step hstep htimely with heq | ⟨now, stop, res, hlt, htime, heq⟩
    · rwa [heq]
    · rw [heq]
      exact hwf.next hsane res hlt htime

/-- **Where the clock does not go back, an attempt to reconnect begins only when the delay of the
backoff has passed since the last one ended: the interval times one more than the attempts that
failed since one succeeded, sixty at most, plus the random part.** -/
theorem attempts_spaced (hsane : config.Sane) {s : Session}
    (hs : (sessionMachine config).ReachableVia Timely s) {a b : Attempt} {attempts : List Attempt}
    (h : a :: b :: attempts <:+ s.reconnect.attempts) :
    b.stop + config.backoff (failures (b :: attempts)) ≤ a.start :=
  (reconnectWf_of_reachable hsane hs).spaced a b attempts h

/-- A connection that the client does not even try. -/
def refusingEnv : ConnectEnv := { acceptingEnv with unready := some .host }

theorem coreMqttConnect_refusingEnv (networkHandle : Option Net) (fields : ConnectFields) :
    coreMqttConnect networkHandle fields refusingEnv =
      (STATE_USER_INPUT_MISSING_HOST, networkHandle) :=
  rfl

theorem attempts_spaced_default : 1600 + defaultConfig.backoff 1 ≤ 5100 := by
  have hs : ∃ s, (sessionMachine defaultConfig).ReachableVia Timely s ∧
      s.reconnect.attempts = [⟨5100, 5200, false⟩, ⟨1500, 1600, false⟩] := by
    refine ⟨_, @Machine.ReachableVia.run_of_meets _ _ (sessionMachine defaultConfig) Timely _
      (.init rfl) [.recvBegin, .recvClosed, .recvReconnect, .recvCheck,
        .recvAttempt 1500 1600 refusingEnv, .recvBegin, .recvClosed, .recvReconnect, .recvCheck,
        .recvAttempt 5100 5200 refusingEnv] _ (by decide) rfl, rfl⟩
  obtain ⟨s, hs, hattempts⟩ := hs
  have h := @attempts_spaced defaultConfig (by decide) s hs ⟨5100, 5200, false⟩
    ⟨1500, 1600, false⟩ [] (by rw [hattempts])
  simpa [failures] using h

/-! ## After a disconnection -/

/-- A step that may connect on the thread that receives. -/
def SessionEvent.isAttempt : SessionEvent → Bool
  | .recvAttempt .. | .recvRelink _ => true
  | _ => false

/-- Whether the receiver stands behind its test of `disconnect_api_called`. -/
def RecvPc.mayAttempt : RecvPc → ℕ
  | .reconnecting | .attempting | .relinking => 1
  | _ => 0

theorem Session.afterConnect_mayAttempt (s : Session) (res : ℤ) (relinked : Bool) :
    (s.afterConnect res relinked).recvPc.mayAttempt = 0 := by
  rw [afterConnect]
  split_ifs <;> rfl

/-- An attempt leaves none to be made. -/
theorem Session.mayAttempt_of_attempt {s s' : Session} {e : SessionEvent}
    (he : e.isAttempt = true) (h : s.step e = some s') :
    s.recvPc.mayAttempt = 1 ∧ s'.recvPc.mayAttempt = 0 ∧
      s'.disconnectApiCalled = s.disconnectApiCalled := by
  cases e with
  | recvAttempt now stop env =>
    simp only [step] at h
    split_ifs at h with hat
    cases h
    refine ⟨by rw [hat.2]; rfl, ?_⟩
    rw [recvAttempt]
    generalize (if now < s.reconnect.lastRetryTime then now else s.reconnect.lastRetryTime) = last
    split_ifs
    · exact ⟨afterConnect_mayAttempt _ _ _, rfl⟩
    · exact ⟨rfl, rfl⟩
  | recvRelink env =>
    simp only [step] at h
    split_ifs at h with hat
    cases h
    exact ⟨by rw [hat.2]; rfl, afterConnect_mayAttempt _ _ _, rfl⟩
  | _ => cases he

/-- No other step brings one back, once the flag is set. -/
theorem Session.mayAttempt_le {s s' : Session} {e : SessionEvent} (he : e.isAttempt = false)
    (hcalled : s.disconnectApiCalled = true) (hne : e ≠ .appConnect) (h : s.step e = some s') :
    s'.recvPc.mayAttempt ≤ s.recvPc.mayAttempt ∧ s'.disconnectApiCalled = true := by
  cases e with
  | recvAttempt now stop env => cases he
  | recvRelink env => cases he
  | appConnect => exact absurd rfl hne
  | processSend =>
    obtain ⟨now, -, rfl⟩ := processSend_of_step h
    exact ⟨le_rfl, hcalled⟩
  | processCount =>
    obtain ⟨now, -, rfl⟩ := processCount_of_step h
    exact ⟨le_rfl, hcalled⟩
  | writeFails =>
    cases h
    exact ⟨le_rfl, hcalled⟩
  | appDisconnect =>
    simp only [step] at h
    split_ifs at h
    cases h
    exact ⟨le_rfl, rfl⟩
  | recvReconnect =>
    simp only [step] at h
    split_ifs at h with hat htest <;> cases h
    · exact absurd hcalled htest.2
    · exact ⟨Nat.zero_le _, hcalled⟩
  | recvLost =>
    simp only [step] at h
    split_ifs at h with hat htest <;> cases h
    · exact absurd hcalled htest.2
    · exact ⟨Nat.zero_le _, hcalled⟩
  | recvCheck =>
    simp only [step] at h
    split_ifs at h with hat hnone <;> cases h
    · exact ⟨by rw [hat.2]; rfl, hcalled⟩
    · exact ⟨Nat.zero_le _, hcalled⟩
  | recvBeat =>
    simp only [step] at h
    split_ifs at h
    cases h
    rw [recvBeat]
    split_ifs <;> exact ⟨Nat.zero_le _, hcalled⟩
  | recvRead mallocOk =>
    simp only [step] at h
    split_ifs at h
    cases h
    rw [recvRead]
    split
    · exact ⟨Nat.zero_le _, hcalled⟩
    · split
      · exact ⟨Nat.zero_le _, hcalled⟩
      · exact ⟨Nat.zero_le _, hcalled⟩
      · refine ⟨?_, hcalled⟩
        simp only
        split_ifs <;> exact Nat.zero_le _
  | recvLinked =>
    simp only [step] at h
    split_ifs at h <;> cases h
    all_goals exact ⟨Nat.zero_le _, hcalled⟩
  | recvClosed =>
    simp only [step] at h
    split_ifs at h <;> cases h
    all_goals exact ⟨Nat.zero_le _, hcalled⟩
  | recvBegin =>
    simp only [step] at h
    split_ifs at h <;> cases h
    all_goals exact ⟨Nat.zero_le _, hcalled⟩
  | recvClose =>
    simp only [step] at h
    split_ifs at h
    cases h
    exact ⟨Nat.zero_le _, hcalled⟩
  | _ =>
    simp only [step] at h
    split_ifs at h <;> cases h
    all_goals exact ⟨le_rfl, hcalled⟩

/-- **After `aiot_mqtt_disconnect` has set its flag, and until the application connects again, the
receiver makes one more attempt to connect at most.** -/
theorem attempts_after_disconnect {s s' : Session} {events : List SessionEvent}
    (hcalled : s.disconnectApiCalled = true) (hnone : .appConnect ∉ events)
    (hrun : (sessionMachine config).run s events = some s') :
    events.countP SessionEvent.isAttempt ≤ s.recvPc.mayAttempt := by
  induction events generalizing s with
  | nil => simp
  | cons e events ih =>
    obtain ⟨t, ht, hrun⟩ := Option.bind_eq_some_iff.1 hrun
    rw [List.mem_cons, not_or] at hnone
    rw [List.countP_cons]
    cases he : e.isAttempt with
    | true =>
      obtain ⟨hone, hzero, heq⟩ := Session.mayAttempt_of_attempt he ht
      have hlater := ih (heq.trans hcalled) hnone.2 hrun
      rw [if_pos rfl]
      omega
    | false =>
      obtain ⟨hle, hcalled'⟩ := Session.mayAttempt_le he hcalled (Ne.symm hnone.1) ht
      have hlater := ih hcalled' hnone.2 hrun
      rw [if_neg Bool.false_ne_true]
      omega

theorem attempts_after_disconnect_late :
    [SessionEvent.recvAttempt 1500 1600 refusingEnv].countP SessionEvent.isAttempt ≤ 1 :=
  @attempts_after_disconnect defaultConfig
    { Session.new defaultConfig with disconnectApiCalled := true, recvPc := .attempting } _
    [.recvAttempt 1500 1600 refusingEnv] rfl (by simp) rfl

/-! ## Connecting again -/

/-- A step of the thread that receives. -/
def SessionEvent.OfReceiver (_ : Session) : SessionEvent → Prop
  | .tell t => t = .recv
  | .processBeat _ | .processSend | .processCount | .writeFails | .appConnect | .appLink _
  | .appDisconnect | .appClose | .appNotice => False
  | _ => True

/-- What the receiver may count on while it alone moves. -/
def Session.Enabled (s : Session) : Prop :=
  s.reconnect.enabled = true ∧ s.disconnectApiCalled = false

/-- Of a connection that is closed, or on which too many heartbeats are lost, the receiver learns
by itself; in the second case between two calls, since in a call it may be about to read. -/
def Session.GivenUp (s : Session) : Prop :=
  s.networkHandle = none ∨
    s.recvPc = .idle ∧ s.heartbeat.maxLostTimes < s.heartbeat.lostTimes

/-- The rest of the call, counted in steps. -/
def RecvPc.rank : RecvPc → ℕ
  | .idle => 0
  | .closing => 1
  | .relinking => 1
  | .reading => 2
  | .lost => 3
  | .closed .heartbeat => 4
  | .beating => 5
  | .linked _ => 6
  | .attempting => 7
  | .reconnecting => 8
  | .begun => 9
  | .closed .network => 10

/-- A receiver in a call with nothing to tell can go on in it, and leaves a closed connection
closed. -/
theorem exists_step_of_pc {s : Session} (henabled : s.Enabled) (hclosed : s.networkHandle = none)
    (hpending : s.notifier.pending .recv = none) (hpc : s.recvPc ≠ .idle) :
    ∃ e s', s.step e = some s' ∧ SessionEvent.OfReceiver s e ∧
      (s'.Enabled ∧ s'.networkHandle = none) ∧ s'.recvPc.rank < s.recvPc.rank := by
  have hkept : s.Enabled ∧ s.networkHandle = none := ⟨henabled, hclosed⟩
  have hat : ∀ pc, s.recvPc = pc → s.At pc := fun pc h => ⟨hpending, h⟩
  cases hs : s.recvPc with
  | idle => exact absurd hs hpc
  | closed reason =>
    cases reason with
    | network =>
      exact ⟨.recvClosed, _, if_pos (hat _ hs), trivial, hkept, by simp [RecvPc.rank]⟩
    | heartbeat =>
      have hne : ¬ s.At (.closed .network) := fun h => by cases hs.symm.trans h.2
      exact ⟨.recvClosed, _, (if_neg hne).trans (if_pos (hat _ hs)), trivial, hkept,
        by simp [RecvPc.rank]⟩
  | begun =>
    refine ⟨.recvReconnect, _, if_pos (hat _ hs), trivial, hkept, ?_⟩
    simp [RecvPc.rank, henabled.1, henabled.2]
  | reconnecting =>
    refine ⟨.recvCheck, _, if_pos (hat _ hs), trivial, hkept, ?_⟩
    simp only
    split_ifs <;> simp [RecvPc.rank]
  | attempting =>
    refine ⟨.recvAttempt 0 0 refusingEnv, _, if_pos (hat _ hs), trivial, ?_, ?_⟩
    · rw [Session.recvAttempt]
      generalize (if 0 < s.reconnect.lastRetryTime then 0 else s.reconnect.lastRetryTime) = last
      split_ifs <;> exact hkept
    · rw [Session.recvAttempt]
      generalize (if 0 < s.reconnect.lastRetryTime then 0 else s.reconnect.lastRetryTime) = last
      split_ifs
      · simp [Session.afterConnect, Session.connect, coreMqttConnect_refusingEnv, RecvPc.rank,
          STATE_USER_INPUT_MISSING_HOST, STATE_SUCCESS, STATE_MQTT_CONNECT_SUCCESS]
      · simp [RecvPc.rank]
  | linked relinked =>
    cases relinked with
    | false =>
      exact ⟨.recvLinked, _, if_pos (hat _ hs), trivial, hkept,
        by simp [Session.recvLinked, RecvPc.rank]⟩
    | true =>
      have hne : ¬ s.At (.linked false) := fun h => by cases hs.symm.trans h.2
      exact ⟨.recvLinked, _, (if_neg hne).trans (if_pos (hat _ hs)), trivial, hkept,
        by simp [Session.recvLinked, RecvPc.rank]⟩
  | beating =>
    refine ⟨.recvBeat, _, if_pos (hat _ hs), trivial, ?_, ?_⟩
    · rw [Session.recvBeat]
      split_ifs <;> exact hkept
    · rw [Session.recvBeat]
      split_ifs <;> simp [RecvPc.rank]
  | lost =>
    refine ⟨.recvLost, _, if_pos (hat _ hs), trivial, hkept, ?_⟩
    simp [RecvPc.rank, henabled.1, henabled.2]
  | relinking =>
    refine ⟨.recvRelink refusingEnv, _, if_pos (hat _ hs), trivial, hkept, ?_⟩
    simp [Session.recvRelink, Session.afterConnect, Session.connect, coreMqttConnect_refusingEnv,
      RecvPc.rank, STATE_USER_INPUT_MISSING_HOST, STATE_SUCCESS, STATE_MQTT_CONNECT_SUCCESS]
  | reading =>
    refine ⟨.recvRead true, _, if_pos (hat _ hs), trivial, ?_, ?_⟩
    · rw [Session.recvRead, hclosed]
      exact ⟨henabled, rfl⟩
    · rw [Session.recvRead, hclosed]
      simp [RecvPc.rank]
  | closing =>
    exact ⟨.recvClose, _, if_pos (hat _ hs), trivial, ⟨henabled, rfl⟩, by simp [RecvPc.rank]⟩

/-- The receiver tells what it is about to tell. -/
theorem leadsTo_told (s : Session) :
    ∃ s', (sessionMachine config).LeadsTo SessionEvent.OfReceiver s s' ∧
      s'.notifier.pending .recv = none ∧
      s'.notifier.told = s.notifier.told ++ (s.notifier.pending .recv).toList ∧
      s' = { s with notifier := s'.notifier } := by
  cases hpending : s.notifier.pending .recv with
  | none => exact ⟨s, .refl s, hpending, by simp, rfl⟩
  | some event =>
    refine ⟨_, .head (a := .tell .recv) (if_pos (by simp [hpending])) rfl (.refl _), ?_, ?_, rfl⟩
    · simp [Notifier.tell, hpending]
    · simp [Notifier.tell, hpending]

/-- With the connection closed the receiver can come to the end of its call. -/
theorem leadsTo_idle {s : Session} (henabled : s.Enabled) (hclosed : s.networkHandle = none) :
    ∃ s', (sessionMachine config).LeadsTo SessionEvent.OfReceiver s s' ∧ s'.Enabled ∧
      s'.networkHandle = none ∧ s'.At .idle := by
  induction hrank : s.recvPc.rank using Nat.strong_induction_on generalizing s with
  | _ n ih =>
    obtain ⟨t, hlead, hpending, -, heq⟩ := @leadsTo_told config s
    have henabled' : t.Enabled := by rwa [heq]
    have hclosed' : t.networkHandle = none := by rwa [heq]
    by_cases hidle : t.recvPc = .idle
    · exact ⟨t, hlead, henabled', hclosed', hpending, hidle⟩
    · obtain ⟨e, u, hstep, he, ⟨henabled'', hclosed''⟩, hlt⟩ :=
        exists_step_of_pc henabled' hclosed' hpending hidle
      have hpc : t.recvPc = s.recvPc := by rw [heq]
      rw [hpc, hrank] at hlt
      obtain ⟨s', hlater, hs'⟩ := ih _ hlt henabled'' hclosed'' rfl
      exact ⟨s', hlead.trans (.head hstep he hlater), hs'⟩

/-- The receiver has a connection, and has told the application so last. -/
def Session.ConnectedAndTold (s : Session) : Prop :=
  s.networkHandle.isSome = true ∧ ∃ told e, s.notifier.told = told ++ [e] ∧
    e.isDisconnect = false

/-- Behind an attempt that succeeded only the telling is left. -/
theorem leadsTo_connectedAndTold {s : Session} {relinked : Bool} (hat : s.At (.linked relinked))
    (hopen : s.networkHandle.isSome = true) :
    ∃ s', (sessionMachine config).LeadsTo SessionEvent.OfReceiver s s' ∧ s'.ConnectedAndTold := by
  have hstep : (sessionMachine config).step s .recvLinked = some (s.recvLinked relinked) := by
    cases relinked with
    | false => exact if_pos hat
    | true =>
      have hne : ¬ s.At (.linked false) := fun h => by cases hat.2.symm.trans h.2
      exact (if_neg hne).trans (if_pos hat)
  obtain ⟨s', htold, -, hlast, heq⟩ := @leadsTo_told config (s.recvLinked relinked)
  refine ⟨s', .head hstep trivial htold, by rw [heq]; exact hopen, s.notifier.told,
    if s.notifier.hasConnected then .reconnect else .connect, ?_, by split_ifs <;> rfl⟩
  rw [hlast]
  simp only [Session.recvLinked, Notifier.connectEventNotify, Function.update_self,
    Option.toList_some]

theorem step_recvClosed {s : Session} {reason : DisconnectReason} (hat : s.At (.closed reason)) :
    (sessionMachine config).step s .recvClosed = some { s with
      notifier := s.notifier.disconnectEventNotify .recv reason
      recvPc := match reason with
        | .network => .begun
        | .heartbeat => .lost } := by
  cases reason with
  | network => exact if_pos hat
  | heartbeat =>
    have hne : ¬ s.At (.closed .network) := fun h => by cases hat.2.symm.trans h.2
    exact (if_neg hne).trans (if_pos hat)

theorem step_recvReconnect {s : Session} (henabled : s.Enabled) (hat : s.At .begun) :
    (sessionMachine config).step s .recvReconnect =
      some { s with recvPc := .reconnecting } := by
  have hmay : s.reconnect.enabled = true ∧ ¬ s.disconnectApiCalled = true :=
    ⟨henabled.1, by rw [henabled.2]; exact Bool.false_ne_true⟩
  show (if s.At .begun then _ else none) = _
  rw [if_pos hat, if_pos hmay]

theorem step_recvCheck {s : Session} (hat : s.At .reconnecting) :
    (sessionMachine config).step s .recvCheck = some { s with
      recvPc := if s.networkHandle.isNone then .attempting else .beating } :=
  if_pos hat

theorem step_recvLost {s : Session} (henabled : s.Enabled) (hat : s.At .lost) :
    (sessionMachine config).step s .recvLost = some { s with recvPc := .relinking } := by
  have hmay : s.reconnect.enabled = true ∧ ¬ s.disconnectApiCalled = true :=
    ⟨henabled.1, by rw [henabled.2]; exact Bool.false_ne_true⟩
  show (if s.At .lost then _ else none) = _
  rw [if_pos hat, if_pos hmay]

/-- From a closed connection the receiver comes to the locks of `_core_mqtt_reconnect`. -/
theorem leadsTo_attempting {s : Session} (henabled : s.Enabled) (hidle : s.At .idle)
    (hclosed : s.networkHandle = none) :
    ∃ s', (sessionMachine config).LeadsTo SessionEvent.OfReceiver s s' ∧ s'.At .attempting := by
  obtain ⟨t, hlead, hpending, -, heq⟩ := @leadsTo_told config { s with
    notifier := s.notifier.disconnectEventNotify .recv .network, recvPc := .begun }
  have hbegin : (sessionMachine config).step s .recvBegin =
      some { s with recvPc := .closed .network } := by
    show (if s.At .idle then _ else none) = _
    rw [if_pos hidle, hclosed]
    rfl
  have htold := @step_recvClosed config { s with recvPc := .closed .network } _ ⟨hidle.1, rfl⟩
  have henabled' : t.Enabled := by
    rw [heq]
    exact henabled
  have hcheck : (sessionMachine config).step { t with recvPc := .reconnecting } .recvCheck =
      some { t with recvPc := .attempting } := by
    have hclosed' : t.networkHandle = none := by rw [heq, hclosed]
    rw [@step_recvCheck config { t with recvPc := .reconnecting } ⟨hpending, rfl⟩, hclosed']
    rfl
  refine ⟨{ t with recvPc := .attempting }, ?_, hpending, rfl⟩
  refine .head hbegin trivial (.head htold trivial (hlead.trans ?_))
  exact .head (step_recvReconnect henabled' ⟨hpending, by rw [heq]⟩) trivial
    (.head hcheck trivial (.refl _))

/-- The session behind an attempt that the server accepts. -/
def Session.accepted (s : Session) (now : ℕ) : Session :=
  { s with
    networkHandle := some ⟨[0x30], fun _ => 5⟩
    reconnect := s.reconnect.next now now STATE_MQTT_CONNECT_SUCCESS
    recvPc := .linked false }

theorem step_accepted {s : Session} (hat : s.At .attempting) {now : ℕ}
    (hnow : s.reconnect.lastRetryTime + s.reconnect.delay = now) :
    (sessionMachine config).step s (.recvAttempt now now acceptingEnv) =
      some (s.accepted now) := by
  have hlast : ¬ now < s.reconnect.lastRetryTime := by omega
  have htime : (s.reconnect.lastRetryTime + s.reconnect.delay) % 2 ^ 64 ≤ now :=
    hnow ▸ Nat.mod_le _ _
  show (if s.At .attempting then _ else none) = _
  simp only [if_pos hat, Session.recvAttempt, if_neg hlast, if_pos htime, Session.connect,
    coreMqttConnect_acceptingEnv]
  rfl

/-- From a connection whose heartbeats are lost the receiver comes to the attempt behind that. -/
theorem leadsTo_relinking {s : Session} (henabled : s.Enabled) (hidle : s.At .idle)
    (hopen : s.networkHandle.isNone = false)
    (hlost : s.heartbeat.maxLostTimes < s.heartbeat.lostTimes) :
    ∃ s', (sessionMachine config).LeadsTo SessionEvent.OfReceiver s s' ∧ s'.At .relinking := by
  have hbegin : (sessionMachine config).step s .recvBegin = some { s with recvPc := .begun } := by
    show (if s.At .idle then _ else none) = _
    rw [if_pos hidle, hopen]
    rfl
  have hcheck : (sessionMachine config).step { s with recvPc := .reconnecting } .recvCheck =
      some { s with recvPc := .beating } := by
    rw [@step_recvCheck config { s with recvPc := .reconnecting } ⟨hidle.1, rfl⟩]
    simp only [hopen, Bool.false_eq_true, if_false]
  have hbeat : (sessionMachine config).step { s with recvPc := .beating } .recvBeat =
      some { s with
        heartbeat := { s.heartbeat with log := .lost :: s.heartbeat.log }
        recvPc := .closed .heartbeat } := by
    show (if Session.At { s with recvPc := .beating } .beating then _ else none) = _
    rw [if_pos ⟨hidle.1, rfl⟩, Session.recvBeat]
    simp only [if_pos hlost]
  obtain ⟨t, hlead, hpending, -, heq⟩ := @leadsTo_told config { s with
    notifier := s.notifier.disconnectEventNotify .recv .heartbeat
    heartbeat := { s.heartbeat with log := .lost :: s.heartbeat.log }
    recvPc := .lost }
  have henabled' : t.Enabled := by
    rw [heq]
    exact henabled
  have hreconnect := @step_recvReconnect config { s with recvPc := .begun } henabled ⟨hidle.1, rfl⟩
  have htold := @step_recvClosed config { s with
    heartbeat := { s.heartbeat with log := .lost :: s.heartbeat.log }
    recvPc := .closed .heartbeat } _ ⟨hidle.1, rfl⟩
  refine ⟨{ t with recvPc := .relinking }, ?_, hpending, rfl⟩
  refine .head hbegin trivial (.head hreconnect trivial (.head hcheck trivial ?_))
  refine .head hbeat trivial (.head htold trivial (hlead.trans ?_))
  exact .head (step_recvLost henabled' ⟨hpending, by rw [heq]⟩) trivial (.refl _)

/-- The session behind the attempt for the heartbeats, when the server accepts. -/
def Session.relinked (s : Session) : Session :=
  { s with networkHandle := some ⟨[0x30], fun _ => 5⟩, recvPc := .linked true }

theorem step_relinked {s : Session} (hat : s.At .relinking) :
    (sessionMachine config).step s (.recvRelink acceptingEnv) = some s.relinked := by
  show (if s.At .relinking then _ else none) = _
  simp only [if_pos hat, Session.recvRelink, Session.connect, coreMqttConnect_acceptingEnv]
  rfl

/-- **As long as reconnecting is enabled and the application has not disconnected, the receiver
alone can come from a closed connection, wherever the three threads stand, and from one whose
heartbeats are lost to a connection of which it tells the application, once the server accepts.** -/
theorem can_reconnect {s : Session} (henabled : s.reconnect.enabled = true)
    (hcalled : s.disconnectApiCalled = false) (hgone : s.GivenUp) :
    ∃ s', (sessionMachine config).LeadsTo SessionEvent.OfReceiver s s' ∧ s'.ConnectedAndTold := by
  have hclosed : ∀ t : Session, t.Enabled → t.networkHandle = none →
      ∃ s', (sessionMachine config).LeadsTo SessionEvent.OfReceiver t s' ∧
        s'.ConnectedAndTold := by
    intro t ht hnone
    obtain ⟨u, hidle, hu, hnone', hat⟩ := @leadsTo_idle config t ht hnone
    obtain ⟨v, hattempting, hpending, hpc⟩ := @leadsTo_attempting config u hu hat hnone'
    obtain ⟨s', hlinked, hs'⟩ := @leadsTo_connectedAndTold config
      (v.accepted (v.reconnect.lastRetryTime + v.reconnect.delay)) false ⟨hpending, rfl⟩ rfl
    refine ⟨s', hidle.trans (hattempting.trans ?_), hs'⟩
    exact .head (step_accepted ⟨hpending, hpc⟩ rfl) trivial hlinked
  rcases hgone with hnone | ⟨hpc, hlost⟩
  · exact hclosed s ⟨henabled, hcalled⟩ hnone
  · obtain ⟨t, htold, hpending, -, heq⟩ := @leadsTo_told config s
    have ht : t.Enabled := by
      rw [heq]
      exact ⟨henabled, hcalled⟩
    cases hhandle : t.networkHandle with
    | none =>
      obtain ⟨s', hlead, hs'⟩ := hclosed t ht hhandle
      exact ⟨s', htold.trans hlead, hs'⟩
    | some net =>
      obtain ⟨u, hrelinking, hat⟩ := @leadsTo_relinking config t ht ⟨hpending, by rw [heq, hpc]⟩
        (by rw [hhandle]; rfl) (by rw [heq]; exact hlost)
      obtain ⟨s', hlinked, hs'⟩ :=
        @leadsTo_connectedAndTold config u.relinked true ⟨hat.1, rfl⟩ rfl
      exact ⟨s', htold.trans (hrelinking.trans (.head (step_relinked hat) trivial hlinked)), hs'⟩

/-- A server that fell silent behind a connack that came too late. -/
def silentSession : Session :=
  { Session.new defaultConfig with
    networkHandle := some ⟨[], fun _ => 0⟩
    heartbeat := ⟨25000, 2, 3, 75000, [.counted, .sent, .counted, .sent, .counted, .sent]⟩
    processPc := .sending 100000 }

theorem can_reconnect_silent :
    ∃ s', (sessionMachine defaultConfig).LeadsTo SessionEvent.OfReceiver silentSession s' ∧
      s'.ConnectedAndTold :=
  can_reconnect rfl rfl (Or.inr ⟨rfl, by decide⟩)

end IotIde
