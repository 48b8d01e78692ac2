/-
The lifecycle of the plugin: its callbacks, one step each.

What a callback finds is told by `m_is_init`, `m_is_start`, the pipeline, the graph of the
pipeline and the picture buffer.  A null pointer that is used ends the run.

* `Plugin.initializePlugin`, `Plugin.start`, … — the callbacks; `step` — all of them;
* `Usage` — what the calls so far say about the plugin, whatever it did;
* `Tracks` — the plugin is as the calls say, and a call that `Allows` does not permit uses a
  null pointer (`step_spec`);
* `safe_iff_respected` — the sequences of calls without one.
-/
import Mathlib.Data.List.Basic
import Mathlib.Data.Option.Basic
import Mathlib.Logic.Basic

namespace Interface

/-- How the work is shared between the glasses and the host. -/
inductive WorkScene where
  | stdAllHost
  | segmentPriorGlass
  | segmentNextHost
  deriving DecidableEq, Repr

/-- The macros of a build: the scene of its pipelines, and whether frames are recorded. -/
structure Build where
  scene : WorkScene
  dataRecord : Bool

/-- The types of devices. -/
inductive NRDeviceType where
  | light
  | flora
  | ginaFlora
  | ginaL
  | ginaM
  | other
  deriving DecidableEq, Repr

/-- The glasses that a pipeline is made for. -/
inductive BindGlass where
  | ella
  | flora
  | gina
  | other
  deriving DecidableEq, Repr

/-- The runtimes that a pipeline is made for. -/
inductive BindRuntime where
  | snpedsp
  | cpu
  | other
  deriving DecidableEq, Repr

/-- The frameworks of pipelines. -/
inductive FrameworkType where
  | xgraph
  | other
  deriving DecidableEq, Repr

/-- `PipelineConfig`, as far as `SelectPipeline` reads it. -/
structure PipelineConfig where
  frameworkType : FrameworkType
  bindGlass : BindGlass
  bindRuntime : BindRuntime

/-- What is known of the platform. -/
structure PlatformStatus where
  isSnpeSupport : Bool
  isMobileEvapro : Bool

/-- The status that the pipelines return. -/
inductive Status where
  | success
  | failure
  deriving DecidableEq, Repr

/-- `NRPluginResult` -/
inductive NRPluginResult where
  | success
  | failure
  | invalidArgument
  deriving DecidableEq, Repr

/-- A graph is known by its class, one for each scene. -/
structure Pipeline where
  graphImpl : Option WorkScene

/-- `picbuf` says that there is a picture buffer. -/
structure Plugin where
  isInit : Bool
  isStart : Bool
  pipeline : Option Pipeline
  pipelineWorkScene : Option WorkScene
  picbuf : Bool
  nrCameras : ℕ

/-- The pointers that may be null. -/
inductive NullPointer where
  | graphImpl
  | picbuf
  deriving DecidableEq, Repr

/-- What a callback hands to a graph. -/
inductive Handed where
  | images
  | prediction
  deriving DecidableEq, Repr

/-- What a call returns, and what it hands on. -/
structure Reply where
  result : NRPluginResult
  handed : Option Handed

/-- What `Initialize` is told.  The pipelines of the tar file come in the order that the sort
leaves, each with the status of a graph that is initialised with it. -/
structure InitializeInput where
  deviceType : NRDeviceType
  tar : Option (List (PipelineConfig × Status))
  plat : PlatformStatus

/-- The callbacks, with what decides their branches: whether the arguments pass the first
check, the status of the graph, and for each camera whether there is memory for its image. -/
inductive Call where
  | initializePlugin (input : InitializeInput)
  | start
  | pause
  | resume
  | stop
  | release
  | getHandData (valid : Bool) (status : Status)
  | getHandTrackingMidExecInfo (valid : Bool) (status : Status)
  | notifyDeviceMessage (valid : Bool)
  | notifyData (valid : Bool) (blobs : ℕ → Bool)

/-- `m_nr_cameras` for a device that is known. -/
def NRDeviceType.nrCameras : NRDeviceType → Option ℕ
  | .light => some 2
  | .flora => some 2
  | .ginaFlora => some 1
  | .ginaL => some 1
  | .ginaM => some 1
  | .other => none

/-- The runtimes of the pipelines for `ella` and `flora`. -/
def PlatformStatus.runs (plat : PlatformStatus) (runtime : BindRuntime) : Bool :=
  (plat.isSnpeSupport && runtime = .snpedsp) || (!plat.isMobileEvapro && runtime = .cpu)

/-- `SelectPipeline` takes the pipeline for this device. -/
def PipelineConfig.isSelected (plat : PlatformStatus) (deviceType : NRDeviceType)
    (config : PipelineConfig) : Bool :=
  if deviceType = .light ∧ config.bindGlass = .ella then plat.runs config.bindRuntime
  else if deviceType = .flora ∧ config.bindGlass = .flora then plat.runs config.bindRuntime
  else if config.bindGlass = .gina ∧ config.bindRuntime = .snpedsp then
    deviceType = .ginaFlora || deviceType = .ginaL || deviceType = .ginaM
  else false

/-- The pipelines themselves in the place of their indices. -/
def selectPipeline (pipelines : List (PipelineConfig × Status)) (plat : PlatformStatus)
    (deviceType : NRDeviceType) : List (PipelineConfig × Status) :=
  pipelines.filter fun c => c.1.isSelected plat deviceType

/-- `Pipeline::Init`, with the status of the graph. -/
def Pipeline.init (scene : WorkScene) (config : PipelineConfig) (status : Status)
    (pipeline : Pipeline) : Pipeline × Status :=
  if config.frameworkType = .xgraph then
    if status = .success then (⟨some scene⟩, .success) else (⟨none⟩, .failure)
  else (pipeline, .failure)

/-- The use of a pointer to a graph. -/
def deref (impl : Option WorkScene) : Except NullPointer Unit :=
  if impl.isSome then .ok () else .error .graphImpl

namespace Plugin

/-- The constructor. -/
def new : Plugin where
  isInit := false
  isStart := false
  pipeline := none
  pipelineWorkScene := none
  picbuf := false
  nrCameras := 1

/-- `GetPipeline` creates a pipeline without a graph where there is none. -/
def getPipeline (build : Build) (p : Plugin) : Plugin :=
  match p.pipeline with
  | some _ => p
  | none => { p with pipeline := some ⟨none⟩, pipelineWorkScene := some build.scene }

/-- The graph of the pipeline, if there is one. -/
def impl (p : Plugin) : Option WorkScene := p.pipeline.bind Pipeline.graphImpl

/-- `std::dynamic_pointer_cast` of the graph. -/
def implAs (p : Plugin) (scene : WorkScene) : Option WorkScene := p.impl.filter (· = scene)

/-! ### Initialize and Release -/

/-- One pass of the loop of `Initialize`. -/
def initPipeline (p : Plugin) (config : PipelineConfig) (status : Status) : Plugin × Status :=
  match p.pipeline, p.pipelineWorkScene with
  | some pipeline, some scene =>
    let r := pipeline.init scene config status
    ({ p with pipeline := some r.1 }, r.2)
  -- the pipeline and the scene were set before
  | _, _ => (p, .failure)

/-- The loop of `Initialize`: the first pipeline that succeeds is taken. -/
def initPipelines (build : Build) : List (PipelineConfig × Status) → Plugin → Plugin × Status
  | [], p => (p, .failure)
  | (config, status) :: configs, p =>
    let r := (p.getPipeline build).initPipeline config status
    if r.2 = .success then ({ r.1 with isInit := true }, .success)
    else initPipelines build configs r.1

/-- `Plugin::Initialize` -/
def initializePlugin (build : Build) (input : InitializeInput) (p : Plugin) :
    Plugin × NRPluginResult :=
  match input.deviceType.nrCameras with
  | none => (p, .failure)
  | some n =>
    let p := { p with nrCameras := n, picbuf := true }
    match input.tar with
    | none => (p, .failure)
    | some configs =>
      let r := p.initPipelines build (selectPipeline configs input.plat input.deviceType)
      (r.1, if r.2 = .success then .success else .failure)

/-- `Plugin::Release`: the pipeline and the buffer go, the flags stay. -/
def release (p : Plugin) : Plugin := { p with pipeline := none, picbuf := false }

/-! ### Start, Pause, Resume and Stop -/

/-- `Plugin::Start` -/
def start (build : Build) (p : Plugin) : Except NullPointer (Plugin × NRPluginResult) :=
  if p.isInit then do
    let p := p.getPipeline build
    deref p.impl
    return ({ p with isStart := true }, .success)
  else return (p, .failure)

/-- `Plugin::Stop` -/
def stop (build : Build) (p : Plugin) : Except NullPointer (Plugin × NRPluginResult) :=
  if p.isInit then do
    let p := { p with isStart := false }
    let p := p.getPipeline build
    deref p.impl
    return (p, .success)
  else return (p, .failure)

/-- `Resume` has the steps of `Start`. -/
def resume (build : Build) (p : Plugin) : Except NullPointer (Plugin × NRPluginResult) :=
  p.start build

/-- `Pause` has the steps of `Stop`. -/
def pause (build : Build) (p : Plugin) : Except NullPointer (Plugin × NRPluginResult) :=
  p.stop build

/-! ### Results -/

/-- `GetHandData`, with the status of `PopResult`. -/
def getHandData (build : Build) (valid : Bool) (status : Status) (p : Plugin) :
    Plugin × NRPluginResult :=
  if !valid then (p, .invalidArgument)
  else if p.isInit then
    let p := p.getPipeline build
    let popped := match p.pipelineWorkScene with
      | some .stdAllHost => if (p.implAs .stdAllHost).isSome then status else .failure
      | some .segmentNextHost => if (p.implAs .segmentNextHost).isSome then status else .failure
      | _ => .failure
    (p, if popped = .success then .success else .failure)
  else (p, .failure)

/-- The results are 0 and -1. -/
def getHandTrackingMidExecInfo (build : Build) (valid : Bool) (status : Status) (p : Plugin) :
    Except NullPointer (Plugin × NRPluginResult) :=
  if !valid then return (p, .failure)
  else if p.isInit then do
    let p := p.getPipeline build
    if p.pipelineWorkScene = some .stdAllHost then
      deref (p.implAs .stdAllHost)
      return (p, if status = .success then .success else .failure)
    else return (p, .failure)
  else return (p, .failure)

/-! ### Data -/

/-- `NotifyDeviceMessage`: the host part takes it for a prediction. -/
def notifyDeviceMessage (build : Build) (valid : Bool) (p : Plugin) : Plugin × Reply :=
  if !valid then (p, ⟨.invalidArgument, none⟩)
  else if p.isStart then
    let p := p.getPipeline build
    if p.pipelineWorkScene = some .segmentNextHost then
      (p, ⟨.success, if (p.implAs .segmentNextHost).isSome then some .prediction else none⟩)
    else (p, ⟨.failure, none⟩)
  else (p, ⟨.failure, none⟩)

/-- The loop of `ParseAllCameraData`: whether there is memory for all images. -/
def requestImages (build : Build) (blobs : ℕ → Bool) (p : Plugin) :
    List ℕ → Except NullPointer Bool
  | [] => return true
  | cam :: cams =>
    if p.picbuf then
      if blobs cam then requestImages build blobs p cams
      else if build.dataRecord ∧ p.pipelineWorkScene = some .stdAllHost then do
        -- the state of the frame is set without a check of the cast
        deref (p.implAs .stdAllHost)
        return false
      else return false
    else .error .picbuf

/-- The images go to a graph of the scene. -/
def pushImages (p : Plugin) : Option Handed :=
  match p.pipelineWorkScene with
  | some .stdAllHost => if (p.implAs .stdAllHost).isSome && p.isStart then some .images else none
  | some .segmentPriorGlass =>
    if (p.implAs .segmentPriorGlass).isSome && p.isStart then some .images else none
  | _ => none

/-- `ParseAllCameraData`: the images of all cameras, or none of them. -/
def parseAllCameraData (build : Build) (blobs : ℕ → Bool) (p : Plugin) :
    Except NullPointer (Plugin × Option Handed) := do
  let p := p.getPipeline build
  let requested ← p.requestImages build blobs (List.range p.nrCameras)
  return (p, if requested then p.pushImages else none)

/-- `NotifyData`, which does nothing before `Start`. -/
def notifyData (build : Build) (valid : Bool) (blobs : ℕ → Bool) (p : Plugin) :
    Except NullPointer (Plugin × Option Handed) :=
  if valid && p.isStart then p.parseAllCameraData build blobs else return (p, none)

end Plugin

/-- One callback.  `NotifyData` has no result. -/
def step (build : Build) (p : Plugin) : Call → Except NullPointer (Plugin × Reply)
  | .initializePlugin input =>
    let r := p.initializePlugin build input
    return (r.1, ⟨r.2, none⟩)
  | .start => do
    let r ← p.start build
    return (r.1, ⟨r.2, none⟩)
  | .pause => do
    let r ← p.pause build
    return (r.1, ⟨r.2, none⟩)
  | .resume => do
    let r ← p.resume build
    return (r.1, ⟨r.2, none⟩)
  | .stop => do
    let r ← p.stop build
    return (r.1, ⟨r.2, none⟩)
  | .release => return (p.release, ⟨.success, none⟩)
  | .getHandData valid status =>
    let r := p.getHandData build valid status
    return (r.1, ⟨r.2, none⟩)
  | .getHandTrackingMidExecInfo valid status => do
    let r ← p.getHandTrackingMidExecInfo build valid status
    return (r.1, ⟨r.2, none⟩)
  | .notifyDeviceMessage valid => return p.notifyDeviceMessage build valid
  | .notifyData valid blobs => do
    let r ← p.notifyData build valid blobs
    return (r.1, ⟨.success, r.2⟩)

/-! ### What the calls say -/

/-- The graph and the buffer: both, only the buffer, or none. -/
inductive Resources where
  | released
  | buffer
  | graph
  deriving DecidableEq, Repr

/-- What a sequence of calls says about the plugin, from the calls alone: whether an
`Initialize` succeeded, whether a `Start` or `Resume` came after the last `Pause` or `Stop`,
and what was built since the last `Release`. -/
structure Usage where
  initialised : Bool
  started : Bool
  resources : Resources
  nrCameras : ℕ

namespace InitializeInput

/-- The pipelines that `Initialize` may try. -/
def candidates (input : InitializeInput) : List (PipelineConfig × Status) :=
  match input.tar with
  | none => []
  | some configs => selectPipeline configs input.plat input.deviceType

end InitializeInput

/-- Trying this pipeline replaces the graph. -/
def ReplacesGraph (c : PipelineConfig × Status) : Prop := c.1.frameworkType = .xgraph

/-- Trying this pipeline succeeds. -/
def Succeeds (c : PipelineConfig × Status) : Prop := ReplacesGraph c ∧ c.2 = .success

instance (c : PipelineConfig × Status) : Decidable (ReplacesGraph c) :=
  inferInstanceAs (Decidable (_ = _))

instance (c : PipelineConfig × Status) : Decidable (Succeeds c) :=
  inferInstanceAs (Decidable (_ ∧ _))

namespace Usage

/-- Before the first call. -/
def new : Usage := ⟨false, false, .released, 1⟩

/-- After the pipelines were tried. -/
def tried (u : Usage) (candidates : List (PipelineConfig × Status)) : Usage :=
  if ∃ c ∈ candidates, Succeeds c then { u with initialised := true, resources := .graph }
  else if ∃ c ∈ candidates, ReplacesGraph c then { u with resources := .buffer }
  else u

/-- After the picture buffer was built. -/
def buffered (u : Usage) (nrCameras : ℕ) : Usage :=
  { u with
    nrCameras := nrCameras
    resources := if u.resources = .released then .buffer else u.resources }

/-- What a call does to the use of the plugin. -/
def next (u : Usage) : Call → Usage
  | .initializePlugin input =>
    match input.deviceType.nrCameras with
    | none => u
    | some n => (u.buffered n).tried input.candidates
  | .start => { u with started := u.started || u.initialised }
  | .resume => { u with started := u.started || u.initialised }
  | .pause => { u with started := u.started && !u.initialised }
  | .stop => { u with started := u.started && !u.initialised }
  | .release => { u with resources := .released }
  | _ => u

/-- Once an `Initialize` succeeded, the calls that use the graph need it; images need the
buffer, and the graph too where a frame without memory is recorded. -/
def Allows (build : Build) (u : Usage) : Call → Prop
  | .start => u.initialised → u.resources = .graph
  | .resume => u.initialised → u.resources = .graph
  | .pause => u.initialised → u.resources = .graph
  | .stop => u.initialised → u.resources = .graph
  | .getHandTrackingMidExecInfo valid _ =>
    valid → u.initialised → build.scene = .stdAllHost → u.resources = .graph
  | .notifyData valid blobs => valid → u.started → u.resources ≠ .released ∧
      (build.dataRecord → build.scene = .stdAllHost → (∃ cam < u.nrCameras, blobs cam = false) →
        u.resources = .graph)
  | _ => True

end Usage

/-- Every call is allowed after the calls before it. -/
def Respected (build : Build) : Usage → List Call → Prop
  | _, [] => True
  | u, c :: calls => u.Allows build c ∧ Respected build (u.next c) calls

/-- No call of the sequence uses a null pointer, and images are handed on only while the
plugin is initialised and started. -/
def Safe (build : Build) : Plugin → List Call → Prop
  | _, [] => True
  | p, c :: calls => ∃ p' reply, step build p c = .ok (p', reply) ∧
      (reply.handed = some .images → p.isInit ∧ p.isStart) ∧ Safe build p' calls

/-! ### The plugin is as the calls say -/

/-- The plugin is where its use says. -/
structure Tracks (build : Build) (p : Plugin) (u : Usage) : Prop where
  isInit : p.isInit = u.initialised
  isStart : p.isStart = u.started
  started : u.started → u.initialised
  impl : p.impl = if u.resources = .graph then some build.scene else none
  picbuf : p.picbuf = decide (u.resources ≠ .released)
  workScene : p.pipeline.isSome → p.pipelineWorkScene = some build.scene
  nrCameras : p.nrCameras = u.nrCameras
  pos : 0 < u.nrCameras

variable {build : Build} {p : Plugin} {u : Usage}

theorem tracks_new (build : Build) : Tracks build .new .new where
  isInit := rfl
  isStart := rfl
  started h := absurd h Bool.false_ne_true
  impl := rfl
  picbuf := rfl
  workScene h := absurd h Bool.false_ne_true
  nrCameras := rfl
  pos := Nat.one_pos

/-- The graph has the class that the cast asks for. -/
theorem implAs_scene (h : Tracks build p u) : p.implAs build.scene = p.impl := by
  rw [Plugin.implAs, h.impl]
  split_ifs
  · exact Option.filter_some_pos (decide_eq_true rfl)
  · rfl

theorem Tracks.getPipeline (h : Tracks build p u) : Tracks build (p.getPipeline build) u := by
  unfold Plugin.getPipeline
  split
  · exact h
  · rename_i hnone
    have himpl : p.impl = none := by rw [Plugin.impl, hnone, Option.bind_none]
    exact ⟨h.isInit, h.isStart, h.started, himpl.symm.trans h.impl, h.picbuf, fun _ => rfl,
      h.nrCameras, h.pos⟩

theorem isSome_pipeline_getPipeline (build : Build) (p : Plugin) :
    (p.getPipeline build).pipeline.isSome := by
  unfold Plugin.getPipeline
  split
  · rename_i hsome
    rw [hsome]
    rfl
  · rfl

theorem workScene_getPipeline (h : Tracks build p u) :
    (p.getPipeline build).pipelineWorkScene = some build.scene :=
  h.getPipeline.workScene (isSome_pipeline_getPipeline build p)

/-! ### Initialize -/

theorem Usage.tried_cons_of_not_replacesGraph {c : PipelineConfig × Status}
    (hc : ¬ ReplacesGraph c) (u : Usage) (cs : List (PipelineConfig × Status)) :
    u.tried (c :: cs) = u.tried cs := by
  have hsucceeds : ¬ Succeeds c := fun h => hc h.1
  simp only [Usage.tried, List.exists_mem_cons_iff, hc, hsucceeds, false_or]

theorem Usage.tried_cons_of_succeeds {c : PipelineConfig × Status} (hc : Succeeds c)
    (u : Usage) (cs : List (PipelineConfig × Status)) :
    u.tried (c :: cs) = { u with initialised := true, resources := .graph } :=
  if_pos ⟨c, List.mem_cons_self, hc⟩

theorem Usage.tried_cons_of_fails {c : PipelineConfig × Status} (hc : ReplacesGraph c)
    (hfails : ¬ Succeeds c) (u : Usage) (cs : List (PipelineConfig × Status)) :
    u.tried (c :: cs) = { u with resources := .buffer }.tried cs := by
  simp only [Usage.tried, List.exists_mem_cons_iff, hc, hfails, false_or, true_or, if_true]
  split_ifs <;> rfl

theorem initPipeline_eq {pipeline : Pipeline} {scene : WorkScene}
    (hpipeline : p.pipeline = some pipeline) (hscene : p.pipelineWorkScene = some scene)
    (config : PipelineConfig) (status : Status) :
    p.initPipeline config status =
      ({ p with pipeline := some (pipeline.init scene config status).1 },
        (pipeline.init scene config status).2) := by
  simp only [Plugin.initPipeline, hpipeline, hscene]

/-- The loop of `Initialize`, where there is a picture buffer. -/
theorem Tracks.initPipelines (candidates : List (PipelineConfig × Status)) :
    ∀ {p : Plugin} {u : Usage}, Tracks build p u → u.resources ≠ .released →
      Tracks build (p.initPipelines build candidates).1 (u.tried candidates) := by
  induction candidates with
  | nil =>
    intro p u h _
    simpa [Usage.tried, Plugin.initPipelines] using h
  | cons c candidates ih =>
    intro p u h hbuffer
    obtain ⟨config, status⟩ := c
    have hp := h.getPipeline
    have hscene := workScene_getPipeline h
    obtain ⟨pipeline, hpipeline⟩ := Option.isSome_iff_exists.mp
      (isSome_pipeline_getPipeline build p)
    have hpicbuf : (p.getPipeline build).picbuf = true := by
      rw [hp.picbuf]
      exact decide_eq_true hbuffer
    have hsuccess : Status.failure ≠ .success := by decide
    rw [Plugin.initPipelines, initPipeline_eq hpipeline hscene]
    by_cases hreplaces : ReplacesGraph (config, status)
    · have hxgraph : config.frameworkType = .xgraph := hreplaces
      by_cases hstatus : status = .success
      · have hpair : pipeline.init build.scene config status = (⟨some build.scene⟩, .success) := by
          rw [Pipeline.init, if_pos hxgraph, if_pos hstatus]
        rw [hpair, Usage.tried_cons_of_succeeds ⟨hreplaces, hstatus⟩]
        exact ⟨rfl, hp.isStart, fun _ => rfl, rfl, hpicbuf, fun _ => hscene, hp.nrCameras, hp.pos⟩
      · have hpair : pipeline.init build.scene config status = (⟨none⟩, .failure) := by
          rw [Pipeline.init, if_pos hxgraph, if_neg hstatus]
        have hfails : ¬ Succeeds (config, status) := fun hc => hstatus hc.2
        have hne : Resources.buffer ≠ .released := by decide
        rw [hpair, Usage.tried_cons_of_fails hreplaces hfails]
        dsimp only
        rw [if_neg hsuccess]
        exact ih ⟨hp.isInit, hp.isStart, hp.started, rfl, hpicbuf, fun _ => hscene,
          hp.nrCameras, hp.pos⟩ hne
    · -- another framework: the pipeline stays as it is
      have hpair : pipeline.init build.scene config status = (pipeline, .failure) := by
        exact if_neg hreplaces
      -- writing back the pipeline that was read changes nothing.
      have hsame : { p.getPipeline build with pipeline := some pipeline } =
          p.getPipeline build := by
        rw [← hpipeline]
      rw [hpair, Usage.tried_cons_of_not_replacesGraph hreplaces]
      dsimp only
      rw [if_neg hsuccess, hsame]
      exact ih hp hbuffer

theorem Tracks.initializePlugin (h : Tracks build p u) (input : InitializeInput) :
    Tracks build (p.initializePlugin build input).1 (u.next (.initializePlugin input)) := by
  unfold Plugin.initializePlugin Usage.next
  dsimp only
  cases hdevice : input.deviceType.nrCameras with
  | none => exact h
  | some n =>
    have hpos : 0 < n := by
      cases hd : input.deviceType <;> rw [hd] at hdevice <;>
        simp [NRDeviceType.nrCameras] at hdevice <;> omega
    have hne : (u.buffered n).resources ≠ .released := by
      show (if u.resources = .released then Resources.buffer else u.resources) ≠ .released
      split_ifs with hreleased
      · decide
      · exact hreleased
    -- the buffer is there before a pipeline is tried
    have hbuffered : Tracks build { p with nrCameras := n, picbuf := true } (u.buffered n) :=
      { isInit := h.isInit
        isStart := h.isStart
        started := h.started
        impl := by
          refine h.impl.trans (if_congr ?_ rfl rfl)
          show _ ↔ (if u.resources = .released then Resources.buffer else u.resources) = .graph
          split_ifs with hreleased
          · rw [hreleased]
            decide
          · exact Iff.rfl
        picbuf := (decide_eq_true hne).symm
        workScene := h.workScene
        nrCameras := rfl
        pos := hpos }
    cases htar : input.tar with
    | none =>
      have hcandidates : input.candidates = [] := by rw [InitializeInput.candidates, htar]
      rw [hcandidates]
      simpa [Usage.tried] using hbuffered
    | some configs =>
      have hcandidates : input.candidates =
          selectPipeline configs input.plat input.deviceType := by
        rw [InitializeInput.candidates, htar]
      rw [hcandidates]
      exact hbuffered.initPipelines _ hne

/-! ### One call -/

/-- A call that is allowed leaves the plugin as the calls say, and hands on images only while
they say that it is initialised and started; any other call uses a null pointer. -/
inductive StepSpec (build : Build) (u : Usage) (c : Call) :
    Except NullPointer (Plugin × Reply) → Prop
  | ok {p' : Plugin} {reply : Reply} (allows : u.Allows build c)
      (tracks : Tracks build p' (u.next c))
      (images : reply.handed = some .images → u.initialised ∧ u.started) :
      StepSpec build u c (.ok (p', reply))
  | nullPointer {e : NullPointer} (h : ¬ u.Allows build c) : StepSpec build u c (.error e)

theorem Tracks.setStarted (h : Tracks build p u) {b : Bool} (hb : b → u.initialised) :
    Tracks build { p with isStart := b } { u with started := b } :=
  ⟨h.isInit, rfl, hb, h.impl, h.picbuf, h.workScene, h.nrCameras, h.pos⟩

/-- The use of the graph: what follows is reached only with one. -/
theorem deref_spec {impl : Option WorkScene} {p' : Plugin} {reply : Reply} {c : Call}
    (himpl : impl = if u.resources = .graph then some build.scene else none)
    (hallows : u.Allows build c ↔ u.resources = .graph) (tracks : Tracks build p' (u.next c))
    (images : reply.handed = some .images → u.initialised ∧ u.started) :
    StepSpec build u c (deref impl >>= fun _ => pure (p', reply)) := by
  by_cases hgraph : u.resources = .graph
  · have hok : deref impl = .ok () := by
      rw [himpl, if_pos hgraph]
      rfl
    rw [hok]
    exact .ok (hallows.mpr hgraph) tracks images
  · have herror : deref impl = .error .graphImpl := by
      rw [himpl, if_neg hgraph]
      rfl
    rw [herror]
    exact .nullPointer fun hc => hgraph (hallows.mp hc)

/-- A call that does nothing before the initialisation, and then uses the graph. -/
theorem guarded_spec (h : Tracks build p u) {c : Call} {impl : Option WorkScene} {p' : Plugin}
    {done skipped : NRPluginResult}
    (himpl : impl = if u.resources = .graph then some build.scene else none)
    (hallows : u.Allows build c ↔ (u.initialised → u.resources = .graph))
    (hdone : u.initialised → Tracks build p' (u.next c))
    (hskipped : u.initialised = false → u.next c = u) :
    StepSpec build u c ((if p.isInit then deref impl >>= fun _ => pure (p', done)
        else pure (p, skipped)) >>= fun r => pure (r.1, ⟨r.2, none⟩)) := by
  by_cases hinit : p.isInit = true
  · have hinitialised : u.initialised = true := h.isInit.symm.trans hinit
    rw [if_pos hinit, bind_assoc]
    refine deref_spec himpl ?_ (hdone hinitialised) fun himages => nomatch himages
    rw [hallows, hinitialised, forall_prop_of_true rfl]
  · have hinitialised : u.initialised = false :=
      h.isInit.symm.trans (eq_false_of_ne_true hinit)
    rw [if_neg hinit]
    refine .ok (hallows.mpr fun hc => ?_) ?_ fun himages => nomatch himages
    · exact absurd (hinitialised.symm.trans hc) Bool.false_ne_true
    · rw [hskipped hinitialised]
      exact h

theorem start_spec (h : Tracks build p u) {c : Call}
    (hallows : u.Allows build c ↔ (u.initialised → u.resources = .graph))
    (hnext : u.next c = { u with started := u.started || u.initialised }) :
    StepSpec build u c (p.start build >>= fun r => pure (r.1, ⟨r.2, none⟩)) := by
  refine guarded_spec h h.getPipeline.impl hallows (fun hinitialised => ?_) fun hinitialised => ?_
  · have hstarted : (u.started || u.initialised) = true := by rw [hinitialised, Bool.or_true]
    rw [hnext, hstarted]
    exact h.getPipeline.setStarted fun _ => hinitialised
  · have hstarted : (u.started || u.initialised) = u.started := by
      rw [hinitialised, Bool.or_false]
    rw [hnext, hstarted]

theorem stop_spec (h : Tracks build p u) {c : Call}
    (hallows : u.Allows build c ↔ (u.initialised → u.resources = .graph))
    (hnext : u.next c = { u with started := u.started && !u.initialised }) :
    StepSpec build u c (p.stop build >>= fun r => pure (r.1, ⟨r.2, none⟩)) := by
  have hstopped := (h.setStarted (b := false) fun hb => absurd hb Bool.false_ne_true).getPipeline
  refine guarded_spec h hstopped.impl hallows (fun hinitialised => ?_) fun hinitialised => ?_
  · have hstarted : (u.started && !u.initialised) = false := by
      rw [hinitialised, Bool.not_true, Bool.and_false]
    rw [hnext, hstarted]
    exact hstopped
  · have hstarted : (u.started && !u.initialised) = u.started := by
      rw [hinitialised, Bool.not_false, Bool.and_true]
    rw [hnext, hstarted]

theorem getHandData_fst (h : Tracks build p u) (valid : Bool) (status : Status) :
    Tracks build (p.getHandData build valid status).1 u := by
  unfold Plugin.getHandData
  by_cases hvalid : (!valid) = true
  · rw [if_pos hvalid]
    exact h
  · rw [if_neg hvalid]
    by_cases hinit : p.isInit = true
    · rw [if_pos hinit]
      exact h.getPipeline
    · rw [if_neg hinit]
      exact h

theorem notifyDeviceMessage_spec (h : Tracks build p u) (valid : Bool) :
    StepSpec build u (.notifyDeviceMessage valid)
      (.ok (p.notifyDeviceMessage build valid)) := by
  unfold Plugin.notifyDeviceMessage
  dsimp only
  split_ifs
  · exact .ok trivial h fun himages => nomatch himages
  · exact .ok trivial h.getPipeline fun himages => nomatch himages
  · exact .ok trivial h.getPipeline fun himages => nomatch himages
  · exact .ok trivial h.getPipeline fun himages => nomatch himages
  · exact .ok trivial h fun himages => nomatch himages

theorem getHandTrackingMidExecInfo_spec (h : Tracks build p u) (valid : Bool) (status : Status) :
    StepSpec build u (.getHandTrackingMidExecInfo valid status)
      (p.getHandTrackingMidExecInfo build valid status >>= fun r => pure (r.1, ⟨r.2, none⟩)) := by
  unfold Plugin.getHandTrackingMidExecInfo
  dsimp only
  rw [workScene_getPipeline h]
  by_cases hvalid : valid = true
  · rw [if_neg (by rw [hvalid]; decide)]
    by_cases hinit : p.isInit = true
    · have hinitialised : u.initialised = true := h.isInit.symm.trans hinit
      rw [if_pos hinit]
      by_cases hscene : build.scene = .stdAllHost
      · rw [if_pos (congrArg some hscene), bind_assoc, ← hscene]
        have himpl := (implAs_scene h.getPipeline).trans h.getPipeline.impl
        refine deref_spec himpl ?_ h.getPipeline fun himages => nomatch himages
        exact ⟨fun hc => hc hvalid hinitialised hscene, fun hgraph _ _ _ => hgraph⟩
      · rw [if_neg fun hsome => hscene (Option.some.inj hsome)]
        exact .ok (fun _ _ hc => absurd hc hscene) h.getPipeline fun himages => nomatch himages
    · rw [if_neg hinit]
      exact .ok (fun _ hc => absurd (h.isInit.trans hc) hinit) h fun himages => nomatch himages
  · rw [if_pos (by simpa using hvalid)]
    exact .ok (fun hc => absurd hc hvalid) h fun himages => nomatch himages

theorem release_spec (h : Tracks build p u) :
    StepSpec build u .release (.ok (p.release, ⟨.success, none⟩)) := by
  refine .ok trivial ?_ fun himages => nomatch himages
  exact ⟨h.isInit, h.isStart, h.started, rfl, rfl, (fun hsome => nomatch hsome), h.nrCameras, h.pos⟩

/-! ### Images -/

theorem requestImages_eq (hpicbuf : p.picbuf = true) (blobs : ℕ → Bool) (cams : List ℕ) :
    p.requestImages build blobs cams =
      if ∀ cam ∈ cams, blobs cam then .ok true
      else if build.dataRecord ∧ p.pipelineWorkScene = some .stdAllHost then
        deref (p.implAs .stdAllHost) >>= fun _ => .ok false
      else .ok false := by
  induction cams with
  | nil => exact (if_pos fun cam hcam => absurd hcam List.not_mem_nil).symm
  | cons cam cams ih =>
    rw [Plugin.requestImages, if_pos hpicbuf]
    by_cases hblob : blobs cam = true
    · rw [if_pos hblob, ih]
      refine if_congr ?_ rfl rfl
      rw [List.forall_mem_cons]
      exact (and_iff_right hblob).symm
    · have hnot : ¬ ∀ c ∈ cam :: cams, blobs c = true := fun hall =>
        hblob (hall cam List.mem_cons_self)
      rw [if_neg hblob, if_neg hnot]
      rfl

/-- The images of a frame, while the plugin is started. -/
theorem parseAllCameraData_spec (h : Tracks build p u) (hstarted : u.started = true)
    (blobs : ℕ → Bool) :
    StepSpec build u (.notifyData true blobs)
      (p.parseAllCameraData build blobs >>= fun r => pure (r.1, ⟨.success, r.2⟩)) := by
  unfold Plugin.parseAllCameraData
  dsimp only
  have hp := h.getPipeline
  have hscene := workScene_getPipeline h
  by_cases hreleased : u.resources = .released
  · -- the first camera already needs the buffer
    have hpicbuf : ¬ (p.getPipeline build).picbuf = true := by
      rw [hp.picbuf, hreleased]
      decide
    obtain ⟨n, hn⟩ : ∃ n, (p.getPipeline build).nrCameras = n + 1 :=
      Nat.exists_eq_add_one.mpr (hp.nrCameras ▸ hp.pos)
    have hrequest : (p.getPipeline build).requestImages build blobs
        (List.range (p.getPipeline build).nrCameras) = .error .picbuf := by
      rw [hn, List.range_succ_eq_map, Plugin.requestImages, if_neg hpicbuf]
    rw [hrequest]
    exact .nullPointer fun hc => (hc rfl hstarted).1 hreleased
  · have hpicbuf : (p.getPipeline build).picbuf = true := by
      rw [hp.picbuf]
      exact decide_eq_true hreleased
    rw [requestImages_eq hpicbuf, hscene]
    have hinitialised := hp.started hstarted
    by_cases hall : ∀ cam ∈ List.range (p.getPipeline build).nrCameras, blobs cam = true
    · rw [if_pos hall]
      refine .ok (fun _ _ => ⟨hreleased, ?_⟩) hp fun _ => ⟨hinitialised, hstarted⟩
      rintro - - ⟨cam, hcam, hblob⟩
      have hmem : cam ∈ List.range (p.getPipeline build).nrCameras :=
        List.mem_range.mpr (hp.nrCameras.symm ▸ hcam)
      exact absurd (hall cam hmem) (by rw [hblob]; exact Bool.false_ne_true)
    · rw [if_neg hall]
      by_cases hrecord : build.dataRecord = true ∧ some build.scene = some .stdAllHost
      · rw [if_pos hrecord]
        have hstd : build.scene = .stdAllHost := Option.some.inj hrecord.2
        obtain ⟨cam, hnot⟩ := not_forall.mp hall
        obtain ⟨hcam, hblob⟩ := Classical.not_imp.mp hnot
        have hlt : cam < u.nrCameras := hp.nrCameras ▸ List.mem_range.mp hcam
        rw [bind_assoc, bind_assoc, ← hstd]
        refine deref_spec ((implAs_scene hp).trans hp.impl) ⟨fun hc => ?_, fun hgraph _ _ => ?_⟩ hp
          fun _ => ⟨hinitialised, hstarted⟩
        · exact (hc rfl hstarted).2 hrecord.1 hstd ⟨cam, hlt, eq_false_of_ne_true hblob⟩
        · exact ⟨hreleased, fun _ _ _ => hgraph⟩
      · rw [if_neg hrecord]
        refine .ok (fun _ _ => ⟨hreleased, fun hdata hstd => ?_⟩) hp fun _ =>
          ⟨hinitialised, hstarted⟩
        exact absurd ⟨hdata, congrArg some hstd⟩ hrecord

theorem notifyData_spec (h : Tracks build p u) (valid : Bool) (blobs : ℕ → Bool) :
    StepSpec build u (.notifyData valid blobs)
      (p.notifyData build valid blobs >>= fun r => pure (r.1, ⟨.success, r.2⟩)) := by
  unfold Plugin.notifyData
  by_cases hframe : (valid && p.isStart) = true
  · rw [if_pos hframe]
    obtain ⟨rfl, hstart⟩ := Bool.and_eq_true_iff.mp hframe
    exact parseAllCameraData_spec h (h.isStart.symm.trans hstart) blobs
  · rw [if_neg hframe]
    refine .ok (fun hvalid hstarted => ?_) h fun himages => nomatch himages
    exact absurd (Bool.and_eq_true_iff.mpr ⟨hvalid, h.isStart.trans hstarted⟩) hframe

/-! ### All calls -/

theorem step_spec (h : Tracks build p u) (c : Call) : StepSpec build u c (step build p c) := by
  cases c with
  | initializePlugin input =>
    exact .ok trivial (h.initializePlugin input) fun himages => nomatch himages
  | start => exact start_spec h Iff.rfl rfl
  | resume => exact start_spec h Iff.rfl rfl
  | pause => exact stop_spec h Iff.rfl rfl
  | stop => exact stop_spec h Iff.rfl rfl
  | release => exact release_spec h
  | getHandData valid status =>
    exact .ok trivial (getHandData_fst h valid status) fun himages => nomatch himages
  | getHandTrackingMidExecInfo valid status =>
    exact getHandTrackingMidExecInfo_spec h valid status
  | notifyDeviceMessage valid => exact notifyDeviceMessage_spec h valid
  | notifyData valid blobs => exact notifyData_spec h valid blobs

theorem safe_iff_of_tracks (calls : List Call) :
    ∀ {p : Plugin} {u : Usage}, Tracks build p u →
      (Safe build p calls ↔ Respected build u calls) := by
  induction calls with
  | nil =>
    intro p u _
    exact Iff.rfl
  | cons c calls ih =>
    intro p u h
    rw [Safe, Respected]
    cases hstep : step build p c with
    | ok r =>
      obtain ⟨p', reply⟩ := r
      have hspec := step_spec h c
      rw [hstep] at hspec
      cases hspec with
      | ok allows tracks images =>
        rw [← h.isInit, ← h.isStart] at images
        constructor
        · rintro ⟨p₁, reply₁, heq, -, hsafe⟩
          obtain ⟨rfl, rfl⟩ := Prod.mk.inj (Except.ok.inj heq)
          exact ⟨allows, (ih tracks).mp hsafe⟩
        · rintro ⟨-, hrespected⟩
          exact ⟨p', reply, rfl, images, (ih tracks).mpr hrespected⟩
    | error e =>
      have hspec := step_spec h c
      rw [hstep] at hspec
      cases hspec with
      | nullPointer hnot =>
        constructor
        · rintro ⟨p₁, reply₁, heq, -⟩
          cases heq
        · rintro ⟨hallows, -⟩
          exact absurd hallows hnot

/-- The sequences of calls without a null pointer are those that respect the lifecycle. -/
theorem safe_iff_respected (build : Build) (calls : List Call) :
    Safe build .new calls ↔ Respected build .new calls :=
  safe_iff_of_tracks calls (tracks_new build)

/-- One pipeline that is selected, on a graph that starts. -/
def lightInput : InitializeInput where
  deviceType := .light
  tar := some [(⟨.xgraph, .ella, .cpu⟩, .success)]
  plat := ⟨false, false⟩

/-- After `Release` the plugin still passes for initialised. -/
theorem start_after_release_not_safe :
    ¬ ∀ (build : Build) (calls : List Call), Safe build .new calls := by
  intro h
  have hrespected := (safe_iff_of_tracks [.initializePlugin lightInput, .release, .start]
    (tracks_new ⟨.stdAllHost, false⟩)).mp (h _ _)
  have hgraph := hrespected.2.2.1 (by decide)
  revert hgraph
  decide

end Interface
