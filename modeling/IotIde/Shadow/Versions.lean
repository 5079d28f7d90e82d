import IotIde.Foundation.Runs
import IotIde.Shadow.Manager

/-!
# Versions of the shadow that rise

The number of an update is one more than the version that the cloud told last; drawing it
stores nothing.  Two updates without a message in between carry the same number, and a
message that comes late takes the stored version back.

* `ShadowRun`, `shadowMachine` — the manager with the numbers it has used;
* `VersionsRise` — the property, of one state;
* `Acknowledged`, `NotStale` — the updates and the messages that keep it;
* `versions_rise_iff` — any sequence of calls and messages.
-/

namespace IotIde

open CText Runs

/-- A manager, the versions it stored before its present one, and the numbers carried by
what it published, both newest first; and whether drawing one has overflowed. -/
structure ShadowRun where
  manager : DeviceShadowManager
  stored : List ℤ
  numbers : List ℤ
  overflowed : Bool

namespace ShadowRun

/-- A call that publishes. -/
def perform (o : ShadowOutcomes) (run : ShadowRun) (update : ShadowUpdate) : ShadowRun :=
  { run with
    numbers := ((run.manager.publish o update).bind Prod.snd).toList ++ run.numbers
    overflowed := run.overflowed || run.manager.overflows o update }

/-- A message that has been taken in, before the update it makes. -/
def receive (run : ShadowRun) (manager : DeviceShadowManager) : ShadowRun :=
  { run with manager := manager, stored := run.manager.version :: run.stored }

end ShadowRun

/-- A call of the program, or a message from the cloud. -/
inductive ShadowEvent
  | call (update : ShadowUpdate)
  | message (topic payload : Bytes)

/-- A manager from its initialisation on. -/
def shadowMachine : Machine ShadowRun (ShadowOutcomes × ShadowEvent) where
  init run := ∃ productKey deviceName,
    run = ⟨shadowManagerInit productKey deviceName, [], [], false⟩
  step run event :=
    match event.2 with
    | .call update => some (run.perform event.1 update)
    | .message topic payload =>
      let handled := shadowHandleMessage run.manager topic payload
      let received := run.receive handled.manager
      match handled.update with
      | none => some received
      | some update => some (received.perform event.1 update)

/-- The numbers of successive publications rise, the stored version never falls, and no
number has overflowed. -/
structure VersionsRise (run : ShadowRun) : Prop where
  numbers : run.numbers.IsChain (· > ·)
  stored : (run.manager.version :: run.stored).IsChain (· ≥ ·)
  defined : run.overflowed = false

/-- The update can draw a number, and if what is published carries it, the cloud has told a
version that is at least the number carried last. -/
def Acknowledged (o : ShadowOutcomes) (run : ShadowRun) (update : ShadowUpdate) : Prop :=
  (update.drawsVersion o = true → run.manager.version ≠ (INT_MAX : ℤ)) ∧
    (0 < run.manager.version →
      (∃ text, update.text (run.manager.version + 1) = some text ∧ update.Whole o text) →
      ∀ number ∈ run.numbers.head?, number ≤ run.manager.version)

/-- The version of a message, where it is stored, is not below the stored one. -/
def NotStale (manager : DeviceShadowManager) (topic payload : Bytes) : Prop :=
  topic = shadowGetTopic manager.productKey manager.deviceName →
    ∀ version ∈ readVersion payload, 0 < version → manager.version ≤ version

/-- The steps that keep the property. -/
def RisingStep (run : ShadowRun) (event : ShadowOutcomes × ShadowEvent) : Prop :=
  match event.2 with
  | .call update => Acknowledged event.1 run update
  | .message topic payload =>
    let handled := shadowHandleMessage run.manager topic payload
    NotStale run.manager topic payload ∧
      ∀ update ∈ handled.update, Acknowledged event.1 (run.receive handled.manager) update

/-! ## One step -/

section Steps

variable {o : ShadowOutcomes} {run : ShadowRun}

/-- A number is carried when the stored version is positive and the whole text goes out,
and it is the version after the stored one. -/
theorem publish_number (manager : DeviceShadowManager) (update : ShadowUpdate) :
    ((manager.publish o update).bind Prod.snd).toList =
      if 0 < manager.version ∧
          ∃ text ∈ update.text (manager.version + 1), update.Whole o text then
        [manager.version + 1] else [] := by
  by_cases hpos : 0 < manager.version
  · have hnext : shadowNextVersion manager.version = manager.version + 1 := if_pos hpos
    have hnext' : manager.version + 1 > 0 := by omega
    simp only [DeviceShadowManager.publish, hnext, hpos, hnext', and_true, true_and]
    cases update.text (manager.version + 1) with
    | none => simp
    | some text =>
      cases hformat : sbFormat o.alloc update.capacity text with
      | none => simp [ShadowUpdate.Whole, hformat]
      | some payload =>
        by_cases hpublishes : o.publishes = true
        · by_cases hwhole : payload = text <;>
            simp [ShadowUpdate.Whole, hformat, hpublishes, hwhole]
        · simp [ShadowUpdate.Whole, hformat, hpublishes]
  · have hnext : shadowNextVersion manager.version = 0 := if_neg hpos
    simp only [DeviceShadowManager.publish, hnext, hpos, false_and, if_false]
    cases update.text 0 with
    | none => rfl
    | some text =>
      simp only
      cases sbFormat o.alloc update.capacity text with
      | none => rfl
      | some payload => cases o.publishes <;> simp

/-- A call keeps the property exactly when it is acknowledged. -/
theorem perform_rises_iff (h : VersionsRise run) (update : ShadowUpdate) :
    VersionsRise (run.perform o update) ↔ Acknowledged o run update := by
  have hoverflow : (run.perform o update).overflowed = false ↔
      (update.drawsVersion o = true → run.manager.version ≠ (INT_MAX : ℤ)) := by
    simp [ShadowRun.perform, h.defined, DeviceShadowManager.overflows]
  have hnumbers : (run.perform o update).numbers.IsChain (· > ·) ↔
      (0 < run.manager.version →
        (∃ text, update.text (run.manager.version + 1) = some text ∧ update.Whole o text) →
        ∀ number ∈ run.numbers.head?, number ≤ run.manager.version) := by
    rw [show (run.perform o update).numbers =
      ((run.manager.publish o update).bind Prod.snd).toList ++ run.numbers from rfl,
      publish_number]
    split_ifs with hcarries
    · rw [List.singleton_append, List.isChain_cons, and_iff_left h.numbers]
      refine ⟨fun hall _ _ number hmem => ?_, fun hall number hmem => ?_⟩
      · have := hall number hmem
        omega
      · have := hall hcarries.1 hcarries.2 number hmem
        omega
    · exact iff_of_true h.numbers fun hpos htext => absurd ⟨hpos, htext⟩ hcarries
  constructor
  · intro hafter
    exact ⟨hoverflow.1 hafter.defined, hnumbers.1 hafter.numbers⟩
  · intro hacknowledged
    exact ⟨hnumbers.2 hacknowledged.2, h.stored, hoverflow.2 hacknowledged.1⟩

/-- What was published and stored before still rises. -/
theorem VersionsRise.of_perform {update : ShadowUpdate}
    (h : VersionsRise (run.perform o update)) : VersionsRise run := by
  refine ⟨?_, h.stored, ?_⟩
  · exact h.numbers.right_of_append
  · exact (Bool.or_eq_false_iff.1 h.defined).1

theorem receive_rises_iff (h : VersionsRise run) (manager : DeviceShadowManager) :
    VersionsRise (run.receive manager) ↔ run.manager.version ≤ manager.version := by
  have hstored : ((run.receive manager).manager.version :: (run.receive manager).stored).IsChain
      (· ≥ ·) ↔ run.manager.version ≤ manager.version := by
    rw [show (run.receive manager).stored = run.manager.version :: run.stored from rfl,
      List.isChain_cons_cons, and_iff_left h.stored]
    rfl
  exact ⟨fun hafter => hstored.1 hafter.stored, fun hle => ⟨h.numbers, hstored.2 hle, h.defined⟩⟩

/-- What a message leaves of the manager. -/
theorem shadowHandleMessage_manager (manager : DeviceShadowManager) {topic : Bytes}
    (htopic : topic = shadowGetTopic manager.productKey manager.deviceName) (payload : Bytes) :
    (shadowHandleMessage manager topic payload).manager =
      match readVersion payload with
      | none => manager
      | some version => manager.updateVersion version := by
  unfold shadowHandleMessage
  rw [if_neg (not_not.2 htopic)]
  cases readDesired payload with
  | none => rfl
  | some desired =>
    simp only
    cases Extract.value? (jsonGetRawValue desired (ascii "ADASSwitch")) 64 <;> rfl

/-- A message does not lower the stored version exactly when it is not stale. -/
theorem handleMessage_version_iff (manager : DeviceShadowManager) (topic payload : Bytes) :
    manager.version ≤ (shadowHandleMessage manager topic payload).manager.version ↔
      NotStale manager topic payload := by
  by_cases htopic : topic = shadowGetTopic manager.productKey manager.deviceName
  · rw [shadowHandleMessage_manager manager htopic, NotStale]
    cases readVersion payload with
    | none => simp
    | some version =>
      unfold DeviceShadowManager.updateVersion
      by_cases hpos : 0 < version
      · simp [htopic, hpos, not_le.2 hpos]
      · simp [hpos, not_lt.1 hpos]
  · rw [shadowHandleMessage, if_pos htopic]
    exact iff_of_true le_rfl fun heq => absurd heq htopic

/-- A step keeps the property exactly when what it publishes is acknowledged and the
message it takes in is not stale. -/
theorem rising_step_iff {run' : ShadowRun} {event : ShadowOutcomes × ShadowEvent}
    (h : VersionsRise run) (hstep : shadowMachine.step run event = some run') :
    VersionsRise run' ↔ RisingStep run event := by
  obtain ⟨o, event⟩ := event
  cases event with
  | call update =>
    cases hstep
    exact perform_rises_iff h update
  | message topic payload =>
    have hreceive := receive_rises_iff h (shadowHandleMessage run.manager topic payload).manager
    rw [handleMessage_version_iff] at hreceive
    simp only [shadowMachine] at hstep
    simp only [RisingStep]
    cases hupdate : (shadowHandleMessage run.manager topic payload).update with
    | none =>
      simp only [hupdate] at hstep
      cases hstep
      simpa using hreceive
    | some update =>
      simp only [hupdate] at hstep
      cases hstep
      constructor
      · intro hafter
        have hbefore := hafter.of_perform
        refine ⟨hreceive.1 hbefore, fun update' hmem => ?_⟩
        cases hmem
        exact (perform_rises_iff hbefore update).1 hafter
      · rintro ⟨hstale, hacknowledged⟩
        exact (perform_rises_iff (hreceive.2 hstale) update).2 (hacknowledged update rfl)

end Steps

/-- In any sequence of calls and messages the versions rise in every state if and only if
every number is acknowledged before the next one is drawn, and no message is stale. -/
theorem versions_rise_iff (productKey deviceName : Bytes)
    (events : List (ShadowOutcomes × ShadowEvent)) :
    shadowMachine.Along VersionsRise
        ⟨shadowManagerInit productKey deviceName, [], [], false⟩ events ↔
      shadowMachine.Meets RisingStep
        ⟨shadowManagerInit productKey deviceName, [], [], false⟩ events := by
  refine Machine.along_iff_meets (I := fun _ => True) (fun _ _ _ _ _ _ => trivial) ?_ events _
    trivial ?_
  · rintro run event run' - h hstep
    exact rising_step_iff h hstep
  · exact ⟨List.isChain_nil, List.isChain_singleton _, rfl⟩

/-- The cloud tells version 7, two deletions follow, and a message comes late. -/
def repeatedVersion : List (ShadowOutcomes × ShadowEvent) :=
  let o : ShadowOutcomes := ⟨fun _ => true, true⟩
  [(o, .message (ascii "/shadow/get/pk/dn") (ascii "\x7b\"method\":\"reply\",\"version\":7\x7d")),
    (o, .call .deleteAll), (o, .call .deleteAll),
    (o, .message (ascii "/shadow/get/pk/dn") (ascii "\x7b\"method\":\"reply\",\"version\":5\x7d"))]

/-- Both deletions carry version 8, and the stored version falls from 7 to 5. -/
theorem version_repeats_and_falls :
    (shadowMachine.run ⟨shadowManagerInit (ascii "pk") (ascii "dn"), [], [], false⟩
        repeatedVersion).map
      (fun run => (run.numbers, run.manager.version :: run.stored)) =
      some ([8, 8], [5, 7, 0]) := by
  decide +kernel

end IotIde
