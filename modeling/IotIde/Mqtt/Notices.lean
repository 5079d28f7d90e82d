import IotIde.Mqtt.Session

/-!
# What the application hears

The events that the handler of the application gets, over all runs of the three threads.

* `Notifier.Wf` — the flags say what was told, and what is about to be told may be told;
* `told_in_order` — unless a thread decides on an event while another one is about to tell one,
  the application hears of its connection first, and never twice in a row that it is gone;
* `told_twice` — and where two threads decide at the same time it may hear that twice.
-/

namespace IotIde

open CText Frames Runs

/-- The application hears of its connection first and of later ones as such, and not twice in a
row that the connection is gone. -/
structure InOrder (told : List AppEvent) : Prop where
  head : ∀ e ∈ told.head?, e = .connect
  tail : .connect ∉ told.tail
  chain : told.IsChain fun a b => a.isDisconnect = true → b.isDisconnect = false

theorem InOrder.concat {told : List AppEvent} (h : InOrder told) {e : AppEvent}
    (hhead : e = .connect ↔ told = [])
    (hlast : ∀ a ∈ told.getLast?, a.isDisconnect = true → e.isDisconnect = false) :
    InOrder (told ++ [e]) := by
  refine ⟨?_, ?_, ?_⟩
  · cases told with
    | nil => simpa using hhead
    | cons a told => exact h.head
  · cases told with
    | nil => simp
    | cons a told =>
      have hne : e ≠ .connect := fun he => by simpa using hhead.1 he
      have htail := h.tail
      simp only [List.tail_cons, List.cons_append, List.mem_append, List.mem_singleton,
        not_or] at htail ⊢
      exact ⟨htail, hne.symm⟩
  · refine List.isChain_append.2 ⟨h.chain, List.isChain_singleton _, fun a ha b hb => ?_⟩
    rw [List.head?_cons, Option.mem_some_iff] at hb
    exact hb ▸ hlast a ha

theorem InOrder.head_of_concat {told : List AppEvent} {e : AppEvent} (h : InOrder (told ++ [e]))
    (hne : e ≠ .connect) : told ≠ [] := by
  rintro rfl
  exact hne (h.head e rfl)

namespace Notifier

/-- No thread is about to tell anything. -/
def Quiet (n : Notifier) : Prop := ∀ t, n.pending t = none

/-- The flags say what was told, and what is about to be told may be told. -/
structure Wf (n : Notifier) : Prop where
  inOrder : InOrder n.told
  hasConnected : n.hasConnected = true ↔ n.told ≠ []
  alone : ∀ t u, n.pending t ≠ none → n.pending u ≠ none → t = u
  next : ∀ t e, n.pending t = some e → n.disconnected = false ∧ InOrder (n.told ++ [e])
  quiet : n.Quiet → (n.disconnected = true ↔ ∃ e ∈ n.told.getLast?, e.isDisconnect = true)

theorem Quiet.wf_update {n : Notifier} (hquiet : n.Quiet) (h : n.Wf) {t : SessionThread}
    {e : AppEvent} (hnext : InOrder (n.told ++ [e])) :
    Wf { n with disconnected := false, pending := Function.update n.pending t (some e) } := by
  have hpending : ∀ u e', Function.update n.pending t (some e) u = some e' → u = t ∧ e = e' := by
    intro u e' hu
    by_cases hut : u = t
    · subst hut
      rw [Function.update_self] at hu
      exact ⟨rfl, Option.some.inj hu⟩
    · rw [Function.update_of_ne hut, hquiet u] at hu
      cases hu
  refine ⟨h.inOrder, h.hasConnected, fun u v hu hv => ?_, fun u e' hu => ?_, fun hq => ?_⟩
  · obtain ⟨e₁, hu⟩ := Option.ne_none_iff_exists'.1 hu
    obtain ⟨e₂, hv⟩ := Option.ne_none_iff_exists'.1 hv
    rw [(hpending u e₁ hu).1, (hpending v e₂ hv).1]
  · obtain ⟨rfl, rfl⟩ := hpending u e' hu
    exact ⟨rfl, hnext⟩
  · have hnone : Function.update n.pending t (some e) t = none := hq t
    rw [Function.update_self] at hnone
    cases hnone

theorem Quiet.wf_connectEventNotify {n : Notifier} (hquiet : n.Quiet) (h : n.Wf)
    (t : SessionThread) : (n.connectEventNotify t).Wf := by
  refine hquiet.wf_update h (h.inOrder.concat ?_ ?_)
  · have hiff := h.hasConnected
    cases hconnected : n.hasConnected <;> simp_all
  · intro a _ _
    split_ifs <;> rfl

theorem Quiet.wf_disconnectEventNotify {n : Notifier} (hquiet : n.Quiet) (h : n.Wf)
    (t : SessionThread) (reason : DisconnectReason) : (n.disconnectEventNotify t reason).Wf := by
  rw [disconnectEventNotify]
  split_ifs with hflags
  · obtain ⟨hconnected, hdisconnected⟩ := hflags
    have hdisconnected : n.disconnected = false := by simpa using hdisconnected
    have hwf := hquiet.wf_update (t := t) h (h.inOrder.concat (e := .disconnect reason) ?_ ?_)
    · rwa [← hdisconnected] at hwf
    · simpa using h.hasConnected.1 hconnected
    · intro a ha hdis
      have := (h.quiet hquiet).2 ⟨a, ha, hdis⟩
      simp [hdisconnected] at this
  · exact h

theorem wf_tell {n : Notifier} (h : n.Wf) (t : SessionThread) : (n.tell t).Wf := by
  rw [tell]
  cases hpending : n.pending t with
  | none => exact h
  | some e =>
    obtain ⟨hdisconnected, hnext⟩ := h.next t e hpending
    have hquiet : ∀ u, Function.update n.pending t none u = none := by
      intro u
      by_cases hut : u = t
      · rw [hut, Function.update_self]
      · rw [Function.update_of_ne hut]
        by_contra hu
        exact hut (h.alone u t hu (by simp [hpending]))
    refine ⟨hnext, ?_, ?_, ?_, ?_⟩
    · by_cases he : e = .connect
      · simp [he]
      · have hne := h.hasConnected.2 (hnext.head_of_concat he)
        simp [hne]
    · intro u v hu
      exact absurd (hquiet u) hu
    · intro u e' hu
      exact absurd ((hquiet u).symm.trans hu) (by simp)
    · intro _
      cases e <;> simp [hdisconnected, AppEvent.isDisconnect]

end Notifier

/-- A step that decides on what the application is told. -/
def SessionEvent.Notifies : SessionEvent → Prop
  | .recvClosed | .recvLinked | .appNotice => True
  | _ => False

/-- What a step does with the notifications. -/
theorem Session.notifier_of_step {s s' : Session} {e : SessionEvent} (h : s.step e = some s') :
    s'.notifier = s.notifier ∨ (∃ t, s'.notifier = s.notifier.tell t) ∨
      e.Notifies ∧ ∃ t, s'.notifier = s.notifier.connectEventNotify t ∨
        ∃ reason, s'.notifier = s.notifier.disconnectEventNotify t reason := by
  cases e with
  | tell t =>
    simp only [step] at h
    split_ifs at h
    cases h
    exact Or.inr (Or.inl ⟨t, rfl⟩)
  | recvClosed =>
    simp only [step] at h
    split_ifs at h <;> cases h
    · exact Or.inr (Or.inr ⟨trivial, .recv, Or.inr ⟨.network, rfl⟩⟩)
    · exact Or.inr (Or.inr ⟨trivial, .recv, Or.inr ⟨.heartbeat, rfl⟩⟩)
  | recvLinked =>
    simp only [step] at h
    split_ifs at h <;> cases h
    all_goals exact Or.inr (Or.inr ⟨trivial, .recv, Or.inl rfl⟩)
  | appNotice =>
    simp only [step] at h
    split_ifs at h <;> cases h
    · exact Or.inr (Or.inr ⟨trivial, .app, Or.inl rfl⟩)
    · exact Or.inr (Or.inr ⟨trivial, .app, Or.inr ⟨.network, rfl⟩⟩)
  | processSend =>
    obtain ⟨now, -, rfl⟩ := processSend_of_step h
    exact Or.inl rfl
  | processCount =>
    obtain ⟨now, -, rfl⟩ := processCount_of_step h
    exact Or.inl rfl
  | writeFails =>
    cases h
    exact Or.inl rfl
  | recvAttempt now stop env =>
    simp only [step] at h
    split_ifs at h
    cases h
    left
    rw [recvAttempt]
    split_ifs <;> rfl
  | recvBeat =>
    simp only [step] at h
    split_ifs at h
    cases h
    left
    rw [recvBeat]
    split_ifs <;> rfl
  | recvRead mallocOk =>
    simp only [step] at h
    split_ifs at h
    cases h
    left
    rw [recvRead]
    split
    · rfl
    · split <;> rfl
  | _ =>
    simp only [step] at h
    split_ifs at h <;> cases h
    all_goals exact Or.inl rfl

/-- The step begins to tell something only where no thread is about to. -/
def InTurn (s : Session) (e : SessionEvent) : Prop := e.Notifies → s.notifier.Quiet

variable {config : SessionConfig}

theorem Notifier.wf_new : Notifier.Wf ⟨false, false, fun _ => none, []⟩ where
  inOrder := ⟨by simp, by simp, .nil⟩
  hasConnected := by simp
  alone _ _ h := absurd rfl h
  next _ _ h := by cases h
  quiet _ := by simp

theorem notifierWf_of_reachable {s : Session} (hs : (sessionMachine config).ReachableVia InTurn s) :
    s.notifier.Wf := by
  refine Machine.invariant (P := fun s => s.notifier.Wf) ?_ ?_ s hs
  · rintro s rfl
    exact Notifier.wf_new
  · intro s e s' hwf hquiet hstep
    rcases Session.notifier_of_step hstep with heq | ⟨t, heq⟩ | ⟨hnotifies, t, heq | ⟨reason, heq⟩⟩
    · rwa [heq]
    · rw [heq]
      exact Notifier.wf_tell hwf t
    · rw [heq]
      exact (hquiet hnotifies).wf_connectEventNotify hwf t
    · rw [heq]
      exact (hquiet hnotifies).wf_disconnectEventNotify hwf t reason

/-- **Unless a thread decides on an event while another one is about to tell one, the application
hears of its connection first, of later ones as such, and never twice in a row that the connection
is gone; and where nothing is about to be told, `disconnected` says whether that came last.** -/
theorem told_in_order {s : Session} (hs : (sessionMachine config).ReachableVia InTurn s) :
    InOrder s.notifier.told ∧ (s.notifier.Quiet →
      (s.notifier.disconnected = true ↔ ∃ e ∈ s.notifier.told.getLast?, e.isDisconnect = true)) :=
  ⟨(notifierWf_of_reachable hs).inOrder, (notifierWf_of_reachable hs).quiet⟩

/-! ## Two threads at the same time -/

instance (n : Notifier) : Decidable n.Quiet :=
  decidable_of_iff (n.pending .recv = none ∧ n.pending .app = none)
    ⟨fun h t => by cases t; exacts [h.1, h.2], fun h => ⟨h _, h _⟩⟩

instance : ∀ e, Decidable (SessionEvent.Notifies e)
  | .recvClosed | .recvLinked | .appNotice => isTrue trivial
  | .tell _ | .recvBegin | .recvReconnect | .recvCheck | .recvAttempt _ _ _ | .recvBeat
  | .recvLost | .recvRelink _ | .recvRead _ | .recvClose | .processBeat _ | .processSend
  | .processCount | .writeFails | .appConnect | .appLink _ | .appDisconnect | .appClose => isFalse id

instance (s : Session) (e : SessionEvent) : Decidable (InTurn s e) :=
  inferInstanceAs (Decidable (_ → _))

/-- The application has connected, and not been told so yet. -/
def firstConnection (config : SessionConfig) : Session :=
  { Session.new config with
    networkHandle := some ⟨[0x30], fun _ => 5⟩
    appPc := .notice true }

theorem firstConnection_reachable :
    (sessionMachine config).ReachableVia InTurn (firstConnection config) := by
  have hcalled : (sessionMachine config).ReachableVia InTurn
      { Session.new config with appPc := .connecting } :=
    .step (a := .appConnect) (.init rfl) (fun h => h.elim) rfl
  refine .step (a := .appLink acceptingEnv) hcalled (fun h => h.elim) ?_
  show some (Session.appLink _ acceptingEnv) = _
  simp only [Session.appLink, Session.connect, coreMqttConnect_acceptingEnv]
  rfl

theorem told_in_order_first :
    InOrder [.connect, .disconnect .network] := by
  have hs : ∃ s, (sessionMachine ⟨⟨[99], [117], [112], 1200, 1⟩, 25000, 2, true, 2000, 0⟩).ReachableVia
      InTurn s ∧ s.notifier.told = [.connect, .disconnect .network] := by
    refine ⟨_, @Machine.ReachableVia.run_of_meets _ _ _ InTurn _ firstConnection_reachable
      [.appNotice, .tell .app, .writeFails, .recvBegin, .recvClosed, .tell .recv] _ (by decide)
      rfl, rfl⟩
  obtain ⟨s, hs, htold⟩ := hs
  exact htold ▸ (told_in_order hs).1

/-- The receiver finds the connection closed while the application disconnects: both have decided
to tell it before either does. -/
theorem told_twice :
    ∃ s, (sessionMachine config).Reachable s ∧
      s.notifier.told = [.connect, .disconnect .network, .disconnect .network] :=
  ⟨_, @Machine.ReachableVia.run _ _ (sessionMachine config) _
    (firstConnection_reachable.mono fun _ _ _ => trivial) [.appNotice, .tell .app, .writeFails,
      .recvBegin, .recvClosed, .appDisconnect, .appClose, .appNotice, .tell .recv, .tell .app]
    _ rfl, rfl⟩

end IotIde
