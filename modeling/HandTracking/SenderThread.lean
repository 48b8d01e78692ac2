/-
The thread that sends predictions to the glasses, started and stopped with the plugin.

`Plugin::Start` and `Plugin::Stop` run on the host's thread, one store at a time; the thread
they start runs `SendGlassPredictionData` between any two of them.  The threads read and write
`exec_exit` in one order.

* `step` — one step of either thread;
* `SenderSafe` — the sender is in its loop while the plugin is started, leaves it soon after it is
  told to, and is never replaced while it can be joined;
* `InTime` — the steps that keep it so; `safeRun_iff_inTime` — a run is safe exactly when all
  its steps are in time.
-/
import HandTracking.Library.Transition
import HandTracking.PluginLifecycle

namespace Interface

open Transition

/-- The callbacks that start and stop the plugin. -/
inductive LifecycleCall where
  | start
  | resume
  | pause
  | stop
  deriving DecidableEq, Repr

/-- What the host's thread does next: nothing, a line of `Start`, or one of `Stop`. -/
inductive HostStep where
  | idle
  | startFlag
  | startExec
  | startThread
  | stopFlag
  | stopExec
  | stopJoin
  deriving DecidableEq, Repr

/-- What the sender does next: the checks at its entry, the condition of its loop, or the body;
`left` is the end of its function. -/
inductive SenderStep where
  | entry
  | loop
  | body
  | left
  deriving DecidableEq, Repr

/-- The plugin and both threads.  `execThread` is the thread that `m_exec_thread` can join;
`moreIterations` counts the passes of its loop since `exec_exit` was last set. -/
structure PluginThreads where
  isInit : Bool
  isStart : Bool
  execExit : Bool
  execThread : Option SenderStep
  host : HostStep
  moreIterations : ℕ
  terminated : Bool
  deriving DecidableEq, Repr

/-- The steps of the threads. -/
inductive ThreadAction where
  | initializePlugin
  | call (c : LifecycleCall)
  | host
  /-- `popped` is what `PopResult` answers when it is called. -/
  | sender (popped : Status)
  deriving DecidableEq, Repr

/-- What a caller sees, and what is sent. -/
inductive ThreadEvent where
  | returned (result : NRPluginResult)
  | sent
  deriving DecidableEq, Repr

namespace PluginThreads

/-- Before the first call. -/
def initial : PluginThreads := ⟨false, false, false, none, .idle, 0, false⟩

/-- A callback is entered; it fails before the plugin is initialised. -/
def enter (s : PluginThreads) (c : LifecycleCall) : PluginThreads × List ThreadEvent :=
  if s.isInit then
    match c with
    | .start | .resume => ({ s with host := .startFlag }, [])
    | .pause | .stop => ({ s with host := .stopFlag }, [])
  else (s, [.returned .failure])

/-- The callback returns. -/
def finish (s : PluginThreads) : PluginThreads × List ThreadEvent :=
  ({ s with host := .idle }, [.returned .success])

/-- One line of `Plugin::Start` or `Plugin::Stop`.  A thread that is assigned over one that can
be joined ends the process; `join` waits. -/
def hostStep (scene : WorkScene) (s : PluginThreads) :
    Option (PluginThreads × List ThreadEvent) :=
  match s.host with
  | .idle => none
  | .startFlag =>
    let s := { s with isStart := true }
    some (if scene = .segmentPriorGlass then ({ s with host := .startExec }, []) else s.finish)
  | .startExec => some ({ s with execExit := false, host := .startThread }, [])
  | .startThread =>
    match s.execThread with
    | some _ => some ({ s with terminated := true }, [])
    | none => some { s with execThread := some .entry, moreIterations := 0 }.finish
  | .stopFlag =>
    let s := { s with isStart := false }
    some (if scene = .segmentPriorGlass then ({ s with host := .stopExec }, []) else s.finish)
  | .stopExec => some ({ s with execExit := true, moreIterations := 0, host := .stopJoin }, [])
  | .stopJoin =>
    match s.execThread with
    | none => some s.finish
    | some .left => some { s with execThread := none }.finish
    | some _ => none

/-- One step of `SendGlassPredictionData`. -/
def senderStep (scene : WorkScene) (popped : Status) (s : PluginThreads) :
    Option (PluginThreads × List ThreadEvent) :=
  match s.execThread with
  | none | some .left => none
  | some .entry =>
    let entered := s.isInit ∧ scene = .segmentPriorGlass
    some ({ s with execThread := some (if entered then .loop else .left) }, [])
  | some .loop =>
    -- the loop goes on while the flag that asks it to end is set
    if s.execExit then
      some ({ s with execThread := some .body, moreIterations := s.moreIterations + 1 }, [])
    else some ({ s with execThread := some .left }, [])
  | some .body =>
    some ({ s with execThread := some .loop }, if popped = .success then [.sent] else [])

end PluginThreads

open PluginThreads

/-- One step of either thread; none after the process has ended.  `Initialize` is called by
the host and not within another callback. -/
def threadStep (scene : WorkScene) (s : PluginThreads) :
    ThreadAction → Option (PluginThreads × List ThreadEvent)
  | .initializePlugin =>
    if s.terminated ∨ s.host ≠ .idle then none else some ({ s with isInit := true }, [])
  | .call c => if s.terminated ∨ s.host ≠ .idle then none else some (s.enter c)
  | .host => if s.terminated then none else s.hostStep scene
  | .sender popped => if s.terminated then none else s.senderStep scene popped

/-- Any interleaving of the two threads. -/
abbrev ThreadRun (scene : WorkScene) :=
  Run (threadStep scene) (fun _ _ => True) PluginThreads.initial

/-- `join` returns once the sender has run on. -/
def JoinCompletes (scene : WorkScene) (s : PluginThreads) : Prop :=
  ∃ (popped : List Status) (es : List ThreadEvent) (s' : PluginThreads),
    Run (threadStep scene) (fun _ _ => True) s
      (popped.map ThreadAction.sender) es s' ∧ (s'.hostStep scene).isSome

/-- What is wanted of a state. -/
structure SenderSafe (scene : WorkScene) (s : PluginThreads) : Prop where
  inLoop : s.isStart = true → s.execThread ≠ some .left
  oneMore : s.moreIterations ≤ 1
  joins : s.host = .stopJoin → JoinCompletes scene s
  notReplaced : s.terminated = false

/-- The sender looks at its flag only after the plugin is told to stop, and has left before
its flag is set; a thread is started where there is none. -/
def InTime (s : PluginThreads) : ThreadAction → Prop
  | .sender _ => s.execThread = some .loop → s.isStart = false
  | .host =>
    (s.host = .stopExec → s.execThread = none ∨ s.execThread = some .left) ∧
      (s.host = .startThread → s.execThread = none)
  | _ => True

/-! ### What is true in every interleaving -/

/-- Where the host's thread is says how the flags are, and there is no thread between a `Stop`
and the next `Start`. -/
structure Consistent (scene : WorkScene) (s : PluginThreads) : Prop where
  thread : s.execThread ≠ none → s.isInit = true ∧ scene = .segmentPriorGlass
  busy : s.host ≠ .idle → s.isInit = true
  starting : s.host = .startExec ∨ s.host = .startThread →
    s.isStart = true ∧ scene = .segmentPriorGlass
  stopping : s.host = .stopExec ∨ s.host = .stopJoin → s.isStart = false
  cleared : s.host = .startThread → s.execExit = false
  told : s.host = .stopJoin → s.execExit = true
  exits : s.execThread ≠ none → s.execExit = true → s.host = .stopJoin
  joined : s.isStart = false → s.host ≠ .stopExec → s.host ≠ .stopJoin → s.execThread = none

variable {scene : WorkScene} {s s' : PluginThreads} {a : ThreadAction} {es : List ThreadEvent}
  {as : List ThreadAction}

theorem consistent_initial (scene : WorkScene) : Consistent scene PluginThreads.initial := by
  constructor <;> simp [PluginThreads.initial]

theorem Consistent.enter (h : Consistent scene s) (hidle : s.host = .idle) (c : LifecycleCall) :
    Consistent scene (s.enter c).1 := by
  obtain ⟨hthread, hbusy, hstarting, hstopping, hcleared, htold, hexits, hjoined⟩ := h
  cases hinit : s.isInit with
  | false =>
    simp only [PluginThreads.enter, hinit]
    constructor <;> simp_all
  | true =>
    cases c with
    | start | resume | pause | stop =>
      simp only [PluginThreads.enter, hinit, if_true]
      constructor <;> simp_all

theorem Consistent.hostStep (h : Consistent scene s)
    (hs : s.hostStep scene = some (s', es)) : Consistent scene s' := by
  obtain ⟨hthread, hbusy, hstarting, hstopping, hcleared, htold, hexits, hjoined⟩ := h
  cases hhost : s.host with
  | idle => simp [PluginThreads.hostStep, hhost] at hs
  | startFlag | stopFlag =>
    simp only [PluginThreads.hostStep, hhost, Option.some.injEq] at hs
    by_cases hscene : scene = .segmentPriorGlass
    · rw [if_pos hscene] at hs
      cases hs
      constructor <;> simp_all
    · rw [if_neg hscene, PluginThreads.finish] at hs
      cases hs
      constructor <;> simp_all
  | startExec | stopExec =>
    simp only [PluginThreads.hostStep, hhost, Option.some.injEq] at hs
    cases hs
    constructor <;> simp_all
  | startThread =>
    simp only [PluginThreads.hostStep, hhost, PluginThreads.finish] at hs
    split at hs
    · cases hs
      constructor <;> simp_all
    · cases hs
      constructor <;> simp_all
  | stopJoin =>
    simp only [PluginThreads.hostStep, hhost, PluginThreads.finish] at hs
    split at hs
    · cases hs
      constructor <;> simp_all
    · cases hs
      constructor <;> simp_all
    · cases hs

theorem Consistent.senderStep {popped : Status} (h : Consistent scene s)
    (hs : s.senderStep scene popped = some (s', es)) : Consistent scene s' := by
  obtain ⟨hthread, hbusy, hstarting, hstopping, hcleared, htold, hexits, hjoined⟩ := h
  simp only [PluginThreads.senderStep] at hs
  split at hs
  · cases hs
  · cases hs
  · cases hs
    constructor <;> simp_all
  · split at hs
    · cases hs
      constructor <;> simp_all
    · cases hs
      constructor <;> simp_all
  · cases hs
    constructor <;> simp_all

theorem Consistent.step (h : Consistent scene s)
    (hs : threadStep scene s a = some (s', es)) : Consistent scene s' := by
  cases a with
  | initializePlugin =>
    simp only [threadStep] at hs
    split at hs
    · cases hs
    · cases hs
      obtain ⟨hthread, hbusy, hstarting, hstopping, hcleared, htold, hexits, hjoined⟩ := h
      constructor <;> simp_all
  | call c =>
    simp only [threadStep] at hs
    split at hs
    · cases hs
    · rename_i hidle
      push Not at hidle
      have henter := h.enter hidle.2 c
      rw [Option.some.inj hs] at henter
      exact henter
  | host =>
    simp only [threadStep] at hs
    split at hs
    · cases hs
    · exact h.hostStep hs
  | sender popped =>
    simp only [threadStep] at hs
    split at hs
    · cases hs
    · exact h.senderStep hs

theorem consistent_run (run : ThreadRun scene as es s) : Consistent scene s :=
  run.state_invariant (consistent_initial scene) fun _ _ _ _ h _ hs => h.step hs

/-- While `Stop` waits, a sender that is in its loop stays there. -/
theorem joinCompletes_iff (h : Consistent scene s) (hhost : s.host = .stopJoin) :
    JoinCompletes scene s ↔ s.execThread = none ∨ s.execThread = some .left := by
  constructor
  · rintro ⟨popped, es, s', run, hjoin⟩
    by_contra hstays
    have hsenders := run.guard_of_mem (p := fun a => ∃ popped, a = .sender popped) (by simp)
    -- no step of the sender leads it out of the loop
    have hwaits : Consistent scene s' ∧ s'.host = .stopJoin ∧
        ¬(s'.execThread = none ∨ s'.execThread = some .left) := by
      refine hsenders.state_invariant
        (I := fun s => Consistent scene s ∧ s.host = .stopJoin ∧
          ¬(s.execThread = none ∨ s.execThread = some .left)) ⟨h, hhost, hstays⟩ ?_
      rintro s a s' es ⟨h, hhost, hstays⟩ ⟨-, popped, rfl⟩ hs
      have h' := h.step hs
      simp only [threadStep] at hs
      split at hs
      · cases hs
      · simp only [PluginThreads.senderStep] at hs
        split at hs
        · cases hs
        · cases hs
        · cases hs
          have hentered := h.thread (by simp_all)
          exact ⟨h', hhost, by simp [hentered]⟩
        · rw [if_pos (h.told hhost)] at hs
          cases hs
          exact ⟨h', hhost, by simp⟩
        · cases hs
          exact ⟨h', hhost, by simp⟩
    obtain ⟨-, hhost', hstays'⟩ := hwaits
    simp only [PluginThreads.hostStep, hhost'] at hjoin
    grind
  · rintro (hthread | hthread)
    · exact ⟨[], [], s, .nil, by simp [PluginThreads.hostStep, hhost, hthread]⟩
    · exact ⟨[], [], s, .nil, by simp [PluginThreads.hostStep, hhost, hthread]⟩

/-! ### Safe runs -/

theorem senderSafe_initial (scene : WorkScene) : SenderSafe scene PluginThreads.initial := by
  constructor <;> simp [PluginThreads.initial]

theorem senderSafe_iff (h : Consistent scene s) :
    SenderSafe scene s ↔ (s.isStart = true → s.execThread ≠ some .left) ∧
      s.moreIterations ≤ 1 ∧
      (s.host = .stopJoin → s.execThread = none ∨ s.execThread = some .left) ∧
      s.terminated = false := by
  constructor
  · rintro ⟨hloop, hmore, hjoins, hreplaced⟩
    exact ⟨hloop, hmore, fun hhost => (joinCompletes_iff h hhost).mp (hjoins hhost), hreplaced⟩
  · rintro ⟨hloop, hmore, hjoins, hreplaced⟩
    exact ⟨hloop, hmore, fun hhost => (joinCompletes_iff h hhost).mpr (hjoins hhost), hreplaced⟩

theorem hostStep_safe_iff (h : Consistent scene s) (hsafe : SenderSafe scene s)
    (hs : s.hostStep scene = some (s', es)) : SenderSafe scene s' ↔ InTime s .host := by
  rw [senderSafe_iff (h.hostStep hs)]
  obtain ⟨hloop, hmore, hjoins, hreplaced⟩ := (senderSafe_iff h).mp hsafe
  obtain ⟨hthread, hbusy, hstarting, hstopping, hcleared, htold, hexits, hjoined⟩ := h
  cases hhost : s.host with
  | idle => simp [PluginThreads.hostStep, hhost] at hs
  | startFlag | stopFlag =>
    simp only [PluginThreads.hostStep, hhost, Option.some.injEq, PluginThreads.finish] at hs
    split at hs
    · cases hs
      grind [InTime]
    · cases hs
      grind [InTime]
  | startExec | stopExec =>
    simp only [PluginThreads.hostStep, hhost, Option.some.injEq] at hs
    cases hs
    grind [InTime]
  | startThread =>
    simp only [PluginThreads.hostStep, hhost, PluginThreads.finish] at hs
    split at hs
    · cases hs
      grind [InTime]
    · cases hs
      grind [InTime]
  | stopJoin =>
    simp only [PluginThreads.hostStep, hhost, PluginThreads.finish] at hs
    split at hs
    · cases hs
      grind [InTime]
    · cases hs
      grind [InTime]
    · cases hs

theorem senderStep_safe_iff {popped : Status} (h : Consistent scene s)
    (hsafe : SenderSafe scene s) (hs : s.senderStep scene popped = some (s', es)) :
    SenderSafe scene s' ↔ InTime s (.sender popped) := by
  rw [senderSafe_iff (h.senderStep hs)]
  obtain ⟨hloop, hmore, hjoins, hreplaced⟩ := (senderSafe_iff h).mp hsafe
  obtain ⟨hthread, hbusy, hstarting, hstopping, hcleared, htold, hexits, hjoined⟩ := h
  simp only [PluginThreads.senderStep] at hs
  split at hs
  · cases hs
  · cases hs
  · cases hs
    grind [InTime]
  · -- with the flag set the host is waiting, and there is no sender in its loop
    split at hs
    · cases hs
      grind [InTime]
    · cases hs
      grind [InTime]
  · cases hs
    grind [InTime]

/-- What a step leaves safe: that is what `InTime` says. -/
theorem threadStep_safe_iff (h : Consistent scene s) (hsafe : SenderSafe scene s)
    (hs : threadStep scene s a = some (s', es)) : SenderSafe scene s' ↔ InTime s a := by
  cases a with
  | initializePlugin =>
    rw [senderSafe_iff (h.step hs)]
    have hsafe := (senderSafe_iff h).mp hsafe
    simp only [threadStep] at hs
    split at hs
    · cases hs
    · cases hs
      exact ⟨fun _ => trivial, fun _ => hsafe⟩
  | call c =>
    rw [senderSafe_iff (h.step hs)]
    have hsafe := (senderSafe_iff h).mp hsafe
    simp only [threadStep] at hs
    split at hs
    · cases hs
    · refine ⟨fun _ => trivial, fun _ => ?_⟩
      -- a call before the initialisation does nothing
      cases hinit : s.isInit with
      | false =>
        simp only [PluginThreads.enter, hinit] at hs
        cases hs
        exact hsafe
      | true =>
        cases c with
        | start | resume | pause | stop =>
          simp only [PluginThreads.enter, hinit, if_true] at hs
          cases hs
          exact ⟨hsafe.1, hsafe.2.1, by simp, hsafe.2.2.2⟩
  | host =>
    simp only [threadStep] at hs
    split at hs
    · cases hs
    · exact hostStep_safe_iff h hsafe hs
  | sender popped =>
    simp only [threadStep] at hs
    split at hs
    · cases hs
    · exact senderStep_safe_iff h hsafe hs

/-- Every state on the way is safe. -/
def SafeRun (scene : WorkScene) (as : List ThreadAction) (es : List ThreadEvent)
    (s : PluginThreads) : Prop :=
  Run (threadStep scene) (fun s _ => SenderSafe scene s) PluginThreads.initial as es s ∧
    SenderSafe scene s

/-- An interleaving is safe exactly when all its steps are in time. -/
theorem safeRun_iff_inTime (scene : WorkScene) (as : List ThreadAction)
    (es : List ThreadEvent) (s : PluginThreads) :
    SafeRun scene as es s ↔
      Run (threadStep scene) (fun s a => InTime s a) PluginThreads.initial as es s :=
  Run.always_iff (senderSafe_initial scene) (fun _ _ _ => consistent_run)
    fun _ _ _ _ => threadStep_safe_iff

/-- The sender leaves its loop at once, though the plugin is started. -/
theorem started_sender_leaves :
    ∃ as es s, ThreadRun .segmentPriorGlass as es s ∧ ¬SenderSafe .segmentPriorGlass s := by
  have run : ThreadRun .segmentPriorGlass
      [.initializePlugin, .call .start, .host, .host, .host, .sender .success, .sender .success]
      [.returned .success] ⟨true, true, false, some .left, .idle, 0, false⟩ :=
    Run.of_exec rfl
  exact ⟨_, _, _, run, fun h => h.inLoop rfl rfl⟩

end Interface
