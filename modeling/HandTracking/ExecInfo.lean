/-
The execution info of the recording graph: `PopExecInfo` and `SetTrackFrameState`.

Two tables advance side by side: the map of the frames a result is awaited for, and
the list of the record group, which `MoveOutputCache` fills from the front.
`PopExecInfo` looks at the front of the list, compares it with the oldest awaited
frame, and returns the record of this frame or the JSON of a busy pipeline.

* `step` — the calls, interrupted wherever a lock is taken or a size is tested;
* `Effect`, `step_effect` — all that a step can do;
* `Kept` — the invariant of the runs in which every call still finds what it saw;
* `popExecInfo_keeps` — in such runs every record is returned for its own frame;
* `pending_records` — two pending records, the older one returned as busy, and an
  empty map read.
-/
import HandTracking.BaseXGraph
import HandTracking.Library.Transition

namespace XGraph

open Transition

/-- `FrameState`: what became of a frame. -/
inductive FrameState where
  | init
  | memFullDrop
  | pushXgraphWaitResult
  | pushXgraphFailure
  | xgraphFlowctrolDrop
  | calculatorHandtrackingDetectDrop
  | xgraphResultFinish
  | outputCacheFullDrop
  | getResultFinish
  deriving DecidableEq, Repr

/-- `FrameTrackInfo`: a frame and what became of it. -/
structure FrameTrackInfo where
  frameTimestamp : ℕ
  frameState : FrameState
  deriving DecidableEq, Repr

/-- A frame in the list of the record group with the `RecordExport` of its packet
`record_result`. -/
structure RecordCache where
  rawTimestamp : ℕ
  exportJsonstring : String
  deriving DecidableEq, Repr

/-- The strategy that `HandTrackingXGraph::Init` gives to the record group. -/
def recordCleanPolicy (exportExecInfo : Bool) : StreamCacheCleanStrategy :=
  if exportExecInfo then ⟨.fullBlock, maxGlobalCacheDepth⟩ else ⟨.fullLoopCover, 3⟩

theorem cleanPolicy_handTrackingInit (names : List String) (exportExecInfo : Bool) :
    (Layout.handTrackingInit names exportExecInfo).cleanPolicy 1 =
      recordCleanPolicy exportExecInfo := rfl

namespace ExecInfo

/-- The result of `PopExecInfo`: the JSON of a record, or the one that
`MakeBusyPipelineNodeInfoToJsonString` makes. -/
inductive JsonString where
  | exported (jsonstring : String)
  | busyPipeline
  deriving DecidableEq, Repr

/-- Where a call of `PopExecInfo` stands. -/
inductive PopPc where
  /-- before the size test of the first `GetOutputStreamCache` -/
  | testing
  /-- before its section under `m_output_lock` -/
  | peeking
  /-- before the map is read under `m_track_frame_lock_` -/
  | tracking (outlist : RecordCache)
  /-- before the size test of the second `GetOutputStreamCache` -/
  | retesting (outlist : RecordCache)
  /-- before its section under `m_output_lock` -/
  | clearing (outlist : RecordCache)
  /-- before the frame is erased from the map -/
  | erasing (targetFrame : ℕ) (jsonstring : JsonString)
  | returned
  deriving DecidableEq, Repr

/-- What `PopExecInfo` and its callers share. -/
structure State where
  /-- the list of the record group, newest record first -/
  recordList : List RecordCache
  /-- `m_debug_frame_infos_` -/
  debugFrameInfos : OrderedMap ℕ FrameTrackInfo
  calls : List PopPc

/-- Before the first frame. -/
def State.init : State where
  recordList := []
  debugFrameInfos := .empty
  calls := []

/-- What the threads do: one call, or one step of a call of `PopExecInfo` that is under way. -/
inductive Action where
  | setTrackFrameState (timestamp : ℕ) (state : FrameState)
  /-- a callback of the record group in `MoveOutputCache`, on a started graph -/
  | moveOutputCache (cache : RecordCache)
  | popExecInfo
  | runPopExecInfo (k : ℕ)
  deriving DecidableEq, Repr

/-- What a caller sees, and the access that has no defined result. -/
inductive Event where
  /-- `begin()->first` was read from the empty map -/
  | emptyBegin
  | failure
  | success (timestamp : ℕ) (jsonstring : JsonString)
  deriving DecidableEq, Repr

/-- A new frame is inserted, the state of a known one is updated. -/
def setTrackFrameState (infos : OrderedMap ℕ FrameTrackInfo) (timestamp : ℕ)
    (state : FrameState) : OrderedMap ℕ FrameTrackInfo :=
  match infos.find? timestamp with
  | none => infos.insert timestamp ⟨timestamp, state⟩
  | some info => (infos.erase timestamp).insert timestamp { info with frameState := state }

/-- The next step of a call: where it stands then, and the tables. -/
def runPopExecInfo (s : State) : PopPc → Option (State × PopPc × List Event)
  | .testing =>
    if s.recordList = [] then some (s, .returned, [.failure]) else some (s, .peeking, [])
  | .peeking =>
    match s.recordList.head? with
    | none => some (s, .returned, [.failure])
    | some outlist => some (s, .tracking outlist, [])
  | .tracking outlist =>
    match s.debugFrameInfos.begin? with
    -- reading `begin()` of an empty map is undefined; the call ends here
    | none => some (s, .returned, [.emptyBegin])
    | some (targetFrame, _) =>
      if outlist.rawTimestamp < targetFrame then some (s, .returned, [.failure])
      else if outlist.rawTimestamp = targetFrame then some (s, .retesting outlist, [])
      else some (s, .erasing targetFrame .busyPipeline, [])
  | .retesting outlist =>
    if s.recordList = [] then
      some (s, .erasing outlist.rawTimestamp (.exported outlist.exportJsonstring), [])
    else some (s, .clearing outlist, [])
  | .clearing outlist =>
    some ({ s with recordList := s.recordList.tail },
      .erasing outlist.rawTimestamp (.exported outlist.exportJsonstring), [])
  | .erasing targetFrame jsonstring =>
    some ({ s with debugFrameInfos := s.debugFrameInfos.erase targetFrame }, .returned,
      [.success targetFrame jsonstring])
  | .returned => none

/-- One step of one party.  Without exported execution info `PopExecInfo` fails at once
and no frame is tracked. -/
def step (exportExecInfo : Bool) (s : State) : Action → Option (State × List Event)
  | .setTrackFrameState timestamp state =>
    if exportExecInfo then
      some ({ s with
        debugFrameInfos := setTrackFrameState s.debugFrameInfos timestamp state }, [])
    else some (s, [])
  | .moveOutputCache cache =>
    match (recordCleanPolicy exportExecInfo).move true s.recordList cache with
    | .pushed list => some ({ s with recordList := list }, [])
    | .dropped => some (s, [])
    | .wait => none
  | .popExecInfo =>
    if exportExecInfo then some ({ s with calls := s.calls ++ [.testing] }, [])
    else some ({ s with calls := s.calls ++ [.returned] }, [.failure])
  | .runPopExecInfo k =>
    (s.calls[k]?).bind fun pc => (runPopExecInfo s pc).map fun r =>
      ({ r.1 with calls := s.calls.set k r.2.1 }, r.2.2)

/-! ### All that a step can do -/

/-- The steps of a call that change neither the list nor the map. -/
inductive Looks (s : State) : PopPc → PopPc → List Event → Prop
  | empty (list : s.recordList = []) : Looks s .testing .returned [.failure]
  | found (list : s.recordList ≠ []) : Looks s .testing .peeking []
  | vanished (list : s.recordList.head? = none) : Looks s .peeking .returned [.failure]
  | peeked {r} (list : s.recordList.head? = some r) : Looks s .peeking (.tracking r) []
  | undefined {r} (map : s.debugFrameInfos.keys.head? = none) :
      Looks s (.tracking r) .returned [.emptyBegin]
  | older {r t} (map : s.debugFrameInfos.keys.head? = some t) (lt : r.rawTimestamp < t) :
      Looks s (.tracking r) .returned [.failure]
  | own {r t} (map : s.debugFrameInfos.keys.head? = some t) (eq : r.rawTimestamp = t) :
      Looks s (.tracking r) (.retesting r) []
  | busy {r t} (map : s.debugFrameInfos.keys.head? = some t) (lt : t < r.rawTimestamp) :
      Looks s (.tracking r) (.erasing t .busyPipeline) []
  | cleared {r} (list : s.recordList = []) :
      Looks s (.retesting r) (.erasing r.rawTimestamp (.exported r.exportJsonstring)) []
  | still {r} (list : s.recordList ≠ []) : Looks s (.retesting r) (.clearing r) []

/-- The effect of one step while the execution info is exported. -/
inductive Effect (s : State) : Action → List Event → State → Prop
  | tracked {t st} : Effect s (.setTrackFrameState t st) []
      { s with debugFrameInfos := setTrackFrameState s.debugFrameInfos t st }
  | recorded {r} (room : s.recordList.length < maxGlobalCacheDepth) :
      Effect s (.moveOutputCache r) [] { s with recordList := r :: s.recordList }
  | called : Effect s .popExecInfo [] { s with calls := s.calls ++ [.testing] }
  | looked {k pc pc' es} (hk : s.calls[k]? = some pc) (looks : Looks s pc pc' es) :
      Effect s (.runPopExecInfo k) es { s with calls := s.calls.set k pc' }
  | popped {k r} (hk : s.calls[k]? = some (.clearing r)) :
      Effect s (.runPopExecInfo k) []
        { s with
          recordList := s.recordList.tail
          calls := s.calls.set k (.erasing r.rawTimestamp (.exported r.exportJsonstring)) }
  | erased {k t j} (hk : s.calls[k]? = some (.erasing t j)) :
      Effect s (.runPopExecInfo k) [.success t j]
        { s with
          debugFrameInfos := s.debugFrameInfos.erase t
          calls := s.calls.set k .returned }

section

variable {s s' : State} {a : Action} {as : List Action} {es es' : List Event}

/-- A push into the record group needs room. -/
theorem move_recordCleanPolicy {l l' : List RecordCache} {r : RecordCache}
    (h : (recordCleanPolicy true).move true l r = .pushed l') :
    l.length < maxGlobalCacheDepth ∧ l' = r :: l := by
  rw [recordCleanPolicy, if_pos rfl, StreamCacheCleanStrategy.move] at h
  dsimp only at h
  split_ifs at h with hfull
  have hroom : ¬maxGlobalCacheDepth ≤ l.length := fun hle => hfull ⟨rfl, hle⟩
  exact ⟨by omega, (Moved.pushed.inj h).symm⟩

theorem runPopExecInfo_effect {k : ℕ} {pc : PopPc} {r : State × PopPc × List Event}
    (hk : s.calls[k]? = some pc) (h : runPopExecInfo s pc = some r) :
    Effect s (.runPopExecInfo k) r.2.2 { r.1 with calls := s.calls.set k r.2.1 } := by
  cases pc with
  | testing =>
    rw [runPopExecInfo] at h
    split_ifs at h with hl
    · obtain rfl := Option.some.inj h
      exact .looked hk (.empty hl)
    · obtain rfl := Option.some.inj h
      exact .looked hk (.found hl)
  | peeking =>
    rw [runPopExecInfo] at h
    rcases hl : s.recordList.head? with _ | outlist
    · rw [hl] at h
      obtain rfl := Option.some.inj h
      exact .looked hk (.vanished hl)
    · rw [hl] at h
      obtain rfl := Option.some.inj h
      exact .looked hk (.peeked hl)
  | tracking outlist =>
    rw [runPopExecInfo] at h
    have hkeys := s.debugFrameInfos.begin?_map_fst
    rcases hb : s.debugFrameInfos.begin? with _ | ⟨t, info⟩
    · rw [hb] at h hkeys
      obtain rfl := Option.some.inj h
      exact .looked hk (.undefined hkeys.symm)
    · rw [hb] at h hkeys
      dsimp only at h
      split_ifs at h with hlt heq
      · obtain rfl := Option.some.inj h
        exact .looked hk (.older hkeys.symm hlt)
      · obtain rfl := Option.some.inj h
        exact .looked hk (.own hkeys.symm heq)
      · obtain rfl := Option.some.inj h
        exact .looked hk (.busy hkeys.symm (by omega))
  | retesting outlist =>
    rw [runPopExecInfo] at h
    split_ifs at h with hl
    · obtain rfl := Option.some.inj h
      exact .looked hk (.cleared hl)
    · obtain rfl := Option.some.inj h
      exact .looked hk (.still hl)
  | clearing outlist =>
    obtain rfl := Option.some.inj h
    exact .popped hk
  | erasing t j =>
    obtain rfl := Option.some.inj h
    exact .erased hk
  | returned => cases h

/-- **The inversion lemma of `step`.** -/
theorem step_effect (h : step true s a = some (s', es)) : Effect s a es s' := by
  cases a with
  | setTrackFrameState t st =>
    obtain ⟨rfl, rfl⟩ := Prod.mk.inj (Option.some.inj h)
    exact .tracked
  | moveOutputCache r =>
    rw [step] at h
    cases hmove : (recordCleanPolicy true).move true s.recordList r with
    | pushed l =>
      obtain ⟨hroom, rfl⟩ := move_recordCleanPolicy hmove
      rw [hmove] at h
      obtain ⟨rfl, rfl⟩ := Prod.mk.inj (Option.some.inj h)
      exact .recorded hroom
    | dropped =>
      -- a blocking list of a started graph drops nothing
      rw [recordCleanPolicy, if_pos rfl, StreamCacheCleanStrategy.move] at hmove
      dsimp only at hmove
      split_ifs at hmove with _ hstart
      exact absurd rfl hstart
    | wait => simp [hmove] at h
  | popExecInfo =>
    obtain ⟨rfl, rfl⟩ := Prod.mk.inj (Option.some.inj h)
    exact .called
  | runPopExecInfo k =>
    obtain ⟨pc, hk, h⟩ := Option.bind_eq_some_iff.mp h
    obtain ⟨r, hr, h⟩ := Option.map_eq_some_iff.mp h
    obtain ⟨rfl, rfl⟩ := Prod.mk.inj h
    exact runPopExecInfo_effect hk hr

/-! ### The invariant of the runs -/

/-- The frames registered by `SetTrackFrameState`. -/
def registered (as : List Action) : List ℕ :=
  as.filterMap fun
    | .setTrackFrameState t _ => some t
    | _ => none

/-- The records that reach the list. -/
def recorded (as : List Action) : List RecordCache :=
  as.filterMap fun
    | .moveOutputCache r => some r
    | _ => none

/-- The results returned with SUCCESS. -/
def successes (es : List Event) : List (ℕ × JsonString) :=
  es.filterMap fun
    | .success t j => some (t, j)
    | _ => none

/-- A call still finds what it saw: when it reads the map some frame is awaited, and if
the record of the oldest awaited frame is in the list it is the one the call peeked at;
when it pops, this record is still at the front; when it erases, its frame is still the
oldest awaited one. -/
def PopPc.Finds (s : State) : PopPc → Prop
  | .tracking outlist => ∃ t ∈ s.debugFrameInfos.keys.head?,
      ∀ r ∈ s.recordList, r.rawTimestamp = t → r = outlist
  | .clearing outlist => s.recordList.head? = some outlist
  | .erasing targetFrame _ => s.debugFrameInfos.keys.head? = some targetFrame
  | _ => True

/-- The steps of the calls find what the calls saw. -/
def Prompt (s : State) : Action → Prop
  | .runPopExecInfo k => ∀ pc ∈ s.calls[k]?, pc.Finds s
  | _ => True

/-- What a call knows about the records. -/
def PopPc.Knows (as : List Action) (s : State) : PopPc → Prop
  | .tracking outlist | .retesting outlist | .clearing outlist => outlist ∈ recorded as
  | .erasing t (.exported j) => ∃ r ∈ recorded as, r.rawTimestamp = t ∧ r.exportJsonstring = j
  | .erasing t .busyPipeline => (∃ r ∈ recorded as, t < r.rawTimestamp) ∧
      ∀ r ∈ s.recordList, r.rawTimestamp ≠ t
  | .testing | .peeking | .returned => True

/-- Frames and order are kept: the frames returned and the frames awaited are the
registered ones in order, and every record is in the list, or it was returned for its
own frame, or a call is about to return it. -/
structure Kept (as : List Action) (es : List Event) (s : State) : Prop where
  order : (successes es).map Prod.fst ++ s.debugFrameInfos.keys = registered as
  arrived : ∀ r ∈ s.recordList, r ∈ recorded as
  knows : ∀ pc ∈ s.calls, pc.Knows as s
  kept : ∀ r ∈ recorded as, r ∈ s.recordList ∨
    (r.rawTimestamp, .exported r.exportJsonstring) ∈ successes es ∨
    .erasing r.rawTimestamp (.exported r.exportJsonstring) ∈ s.calls
  own : ∀ t j, (t, .exported j) ∈ successes es →
    ∃ r ∈ recorded as, r.rawTimestamp = t ∧ r.exportJsonstring = j
  defined : .emptyBegin ∉ es

theorem kept_init : Kept [] [] .init where
  order := rfl
  arrived _ hr := absurd hr List.not_mem_nil
  knows _ hpc := absurd hpc List.not_mem_nil
  kept _ hr := absurd hr List.not_mem_nil
  own _ _ h := absurd h List.not_mem_nil
  defined := List.not_mem_nil

theorem registered_append : registered (as ++ [a]) = registered as ++ registered [a] :=
  List.filterMap_append

theorem recorded_append : recorded (as ++ [a]) = recorded as ++ recorded [a] :=
  List.filterMap_append

theorem successes_append : successes (es ++ es') = successes es ++ successes es' :=
  List.filterMap_append

/-- Knowledge about records that arrived stays true while the list only loses records. -/
theorem PopPc.Knows.mono {pc : PopPc} (h : pc.Knows as s)
    (hrec : recorded as ⊆ recorded (as ++ [a]))
    (hlist : ∀ r ∈ s'.recordList,
      r ∈ s.recordList ∨ ∀ r' ∈ recorded as, r'.rawTimestamp < r.rawTimestamp) :
    pc.Knows (as ++ [a]) s' := by
  cases pc with
  | tracking r => exact hrec h
  | retesting r => exact hrec h
  | clearing r => exact hrec h
  | erasing t j =>
    cases j with
    | exported j =>
      obtain ⟨r, hr, hrt⟩ := h
      exact ⟨r, hrec hr, hrt⟩
    | busyPipeline =>
      obtain ⟨⟨r₀, hr₀, hlt⟩, hne⟩ := h
      refine ⟨⟨r₀, hrec hr₀, hlt⟩, fun r hr => ?_⟩
      rcases hlist r hr with hr | hr
      · exact hne r hr
      · have := hr r₀ hr₀
        omega
  | testing => trivial
  | peeking => trivial
  | returned => trivial

theorem mem_set_cases {l : List PopPc} {k : ℕ} {x y : PopPc} (h : x ∈ l.set k y) :
    x = y ∨ x ∈ l := by
  rcases List.mem_or_eq_of_mem_set h with h | h
  · exact Or.inr h
  · exact Or.inl h

theorem mem_set_of_ne {l : List PopPc} {k : ℕ} {x y z : PopPc} (h : x ∈ l) (hk : l[k]? = some z)
    (hne : x ≠ z) : x ∈ l.set k y := by
  obtain ⟨j, hj⟩ := List.mem_iff_getElem?.mp h
  have hjk : k ≠ j := by
    rintro rfl
    exact hne (Option.some_inj.mp (hj.symm.trans hk))
  exact List.mem_of_getElem? (by rw [List.getElem?_set_ne hjk, hj] : (l.set k y)[j]? = some x)

theorem mem_set_self {l : List PopPc} {k : ℕ} {y z : PopPc} (hk : l[k]? = some z) :
    y ∈ l.set k y :=
  List.mem_set (List.getElem?_eq_some_iff.mp hk).choose y

/-- A call that only looks learns what it sees. -/
theorem Looks.knows {pc pc' : PopPc} (h : Looks s pc pc' es) (hk : pc.Knows as s)
    (arrived : ∀ r ∈ s.recordList, r ∈ recorded as) (finds : pc.Finds s) : pc'.Knows as s := by
  cases h with
  | peeked list => exact arrived _ (List.mem_of_head? list)
  | own => exact hk
  | @busy r t map lt =>
    obtain ⟨t', ht', hfront⟩ := finds
    obtain rfl := Option.some_inj.mp (ht'.symm.trans map)
    refine ⟨⟨r, hk, lt⟩, fun r' hr' heq => ?_⟩
    obtain rfl := hfront r' hr' heq
    omega
  | @cleared r => exact ⟨r, hk, rfl, rfl⟩
  | still => exact hk
  | _ => trivial

/-- Looking returns no result, and reads no empty map where a frame is awaited. -/
theorem Looks.quiet {pc pc' : PopPc} (h : Looks s pc pc' es) (finds : pc.Finds s) :
    successes es = [] ∧ .emptyBegin ∉ es ∧ ∀ t j, pc ≠ .erasing t j := by
  cases h with
  | undefined map =>
    obtain ⟨t, ht, _⟩ := finds
    rw [map] at ht
    cases ht
  | _ => exact ⟨rfl, by simp, fun t j h => by cases h⟩

/-- New frames are registered behind the awaited ones. -/
theorem keys_setTrackFrameState {infos : OrderedMap ℕ FrameTrackInfo} {t : ℕ} {st : FrameState}
    (h : ∀ t' ∈ infos.keys, t' < t) : (setTrackFrameState infos t st).keys = infos.keys ++ [t] := by
  have hnew : infos.find? t = none := by
    rcases hf : infos.find? t with _ | info
    · rfl
    · have hlt := h t (OrderedMap.mem_keys.mpr ⟨info, hf⟩)
      exact absurd hlt (lt_irrefl t)
  rw [setTrackFrameState, hnew]
  exact OrderedMap.keys_insert_of_lt h

variable (as) in
theorem recorded_run (k : ℕ) : recorded (as ++ [.runPopExecInfo k]) = recorded as := by
  rw [recorded_append]
  exact List.append_nil _

theorem Kept.step_tracked {t : ℕ} {st : FrameState} (h : Kept as es s)
    (hreg : (registered (as ++ [.setTrackFrameState t st])).Pairwise (· < ·)) :
    Kept (as ++ [.setTrackFrameState t st]) (es ++ [])
      { s with debugFrameInfos := setTrackFrameState s.debugFrameInfos t st } := by
  have hlt : ∀ t' ∈ s.debugFrameInfos.keys, t' < t := by
    intro t' ht'
    rw [registered_append] at hreg
    have hmem : t' ∈ registered as := h.order ▸ List.mem_append_right _ ht'
    exact (List.pairwise_append.mp hreg).2.2 t' hmem t (List.mem_singleton_self t)
  exact {
    order := by
      rw [registered_append, successes_append, keys_setTrackFrameState hlt, ← h.order]
      simp [registered, successes]
    arrived := by simpa [recorded_append, recorded] using h.arrived
    knows := fun pc hpc => (h.knows pc hpc).mono (by simp [recorded_append])
      fun r hr => Or.inl hr
    kept := by simpa [recorded_append, recorded, successes_append, successes] using h.kept
    own := by simpa [recorded_append, recorded, successes_append, successes] using h.own
    defined := by simpa using h.defined }

theorem Kept.step_recorded {r : RecordCache} (h : Kept as es s)
    (hrec : (recorded (as ++ [.moveOutputCache r])).Pairwise
      fun r r' => r.rawTimestamp < r'.rawTimestamp) :
    Kept (as ++ [.moveOutputCache r]) (es ++ []) { s with recordList := r :: s.recordList } := by
  have hrec' : recorded (as ++ [.moveOutputCache r]) = recorded as ++ [r] :=
    recorded_append
  have hgt : ∀ r' ∈ recorded as, r'.rawTimestamp < r.rawTimestamp := by
    intro r' hr'
    rw [hrec'] at hrec
    exact (List.pairwise_append.mp hrec).2.2 r' hr' r (List.mem_singleton_self r)
  exact {
    order := by
      rw [registered_append, successes_append]
      simpa [registered, successes] using h.order
    arrived := by
      intro r' hr'
      rw [hrec']
      rcases List.mem_cons.mp hr' with rfl | hr'
      · exact List.mem_append_right _ (List.mem_singleton_self r')
      · exact List.mem_append_left _ (h.arrived r' hr')
    -- the new record is younger than all that came before
    knows := by
      intro pc hpc
      refine (h.knows pc hpc).mono (by rw [hrec']; exact List.subset_append_left _ _) ?_
      intro r' hr'
      rcases List.mem_cons.mp hr' with rfl | hr'
      · exact Or.inr hgt
      · exact Or.inl hr'
    kept := by
      intro r' hr'
      rw [hrec'] at hr'
      rw [successes_append]
      rcases List.mem_append.mp hr' with hr' | hr'
      · rcases h.kept r' hr' with hl | hs | hc
        · exact Or.inl (List.mem_cons_of_mem r hl)
        · exact Or.inr (Or.inl (List.mem_append_left _ hs))
        · exact Or.inr (Or.inr hc)
      · obtain rfl := List.mem_singleton.mp hr'
        exact Or.inl List.mem_cons_self
    own := by
      intro t j hs
      rw [successes_append] at hs
      obtain ⟨r', hr', hown⟩ := h.own t j (by simpa [successes] using hs)
      exact ⟨r', by rw [hrec']; exact List.mem_append_left _ hr', hown⟩
    defined := by simpa using h.defined }

theorem Kept.step_called (h : Kept as es s) :
    Kept (as ++ [.popExecInfo]) (es ++ []) { s with calls := s.calls ++ [.testing] } := by
  exact {
    order := by
      rw [registered_append, successes_append]
      simpa [registered, successes] using h.order
    arrived := by simpa [recorded_append, recorded] using h.arrived
    knows := by
      intro pc hpc
      rcases List.mem_append.mp hpc with hpc | hpc
      · exact (h.knows pc hpc).mono (by simp [recorded_append]) fun r hr => Or.inl hr
      · obtain rfl := List.mem_singleton.mp hpc
        trivial
    kept := by simpa [recorded_append, recorded, successes_append, successes] using h.kept
    own := by simpa [recorded_append, recorded, successes_append, successes] using h.own
    defined := by simpa using h.defined }

theorem Kept.step_looked {k : ℕ} {pc pc' : PopPc} (h : Kept as es s) (hk : s.calls[k]? = some pc)
    (looks : Looks s pc pc' es') (finds : pc.Finds s) :
    Kept (as ++ [.runPopExecInfo k]) (es ++ es') { s with calls := s.calls.set k pc' } := by
  obtain ⟨hquiet, hdef, hne⟩ := looks.quiet finds
  have hrec' := recorded_run as k
  exact {
    order := by
      rw [registered_append, successes_append, hquiet]
      simpa [registered] using h.order
    arrived := by rw [hrec']; exact h.arrived
    knows := by
      intro p hp
      have hold : ∀ q : PopPc, q.Knows as s → q.Knows (as ++ [.runPopExecInfo k]) s := fun q hq =>
        hq.mono (by rw [hrec']; exact List.Subset.refl _) fun r hr => Or.inl hr
      rcases mem_set_cases hp with rfl | hp
      · exact hold _ (looks.knows (h.knows pc (List.mem_of_getElem? hk)) h.arrived finds)
      · exact hold p (h.knows p hp)
    kept := by
      intro r hr
      rw [hrec'] at hr
      rw [successes_append, hquiet, List.append_nil]
      rcases h.kept r hr with hl | hs | hc
      · exact Or.inl hl
      · exact Or.inr (Or.inl hs)
      · exact Or.inr (Or.inr (mem_set_of_ne hc hk (hne _ _).symm))
    own := by
      rw [hrec', successes_append, hquiet, List.append_nil]
      exact h.own
    defined := by simp [h.defined, hdef] }

theorem Kept.step_popped {k : ℕ} {r : RecordCache} (h : Kept as es s)
    (hk : s.calls[k]? = some (.clearing r)) (finds : s.recordList.head? = some r) :
    Kept (as ++ [.runPopExecInfo k]) (es ++ [])
      { s with
        recordList := s.recordList.tail
        calls := s.calls.set k (.erasing r.rawTimestamp (.exported r.exportJsonstring)) } := by
  have hrec' := recorded_run as k
  obtain ⟨rest, hrest⟩ := List.head?_eq_some_iff.mp finds
  have hr : r ∈ recorded as := h.knows _ (List.mem_of_getElem? hk)
  exact {
    order := by
      rw [registered_append, successes_append]
      simpa [registered, successes] using h.order
    arrived := by
      rw [hrec']
      exact fun r' hr' => h.arrived r' (List.mem_of_mem_tail hr')
    knows := by
      intro p hp
      rcases mem_set_cases hp with rfl | hp
      · exact ⟨r, by rw [hrec']; exact hr, rfl, rfl⟩
      · exact (h.knows p hp).mono (by rw [hrec']; exact List.Subset.refl _) fun r' hr' =>
          Or.inl (List.mem_of_mem_tail hr')
    kept := by
      intro r' hr'
      rw [hrec'] at hr'
      rw [successes_append]
      rcases h.kept r' hr' with hl | hs | hc
      · -- the first record leaves the list, and the call has it in hand
        rw [hrest] at hl
        rcases List.mem_cons.mp hl with rfl | hl
        · exact Or.inr (Or.inr (mem_set_self hk))
        · exact Or.inl (by rw [hrest]; exact hl)
      · exact Or.inr (Or.inl (List.mem_append_left _ hs))
      · exact Or.inr (Or.inr (mem_set_of_ne hc hk (by simp)))
    own := by simpa [hrec', successes_append, successes] using h.own
    defined := by simpa using h.defined }

theorem Kept.step_erased {k t : ℕ} {j : JsonString} (h : Kept as es s)
    (hk : s.calls[k]? = some (.erasing t j)) (finds : s.debugFrameInfos.keys.head? = some t) :
    Kept (as ++ [.runPopExecInfo k]) (es ++ [.success t j])
      { s with
        debugFrameInfos := s.debugFrameInfos.erase t
        calls := s.calls.set k .returned } := by
  have hrec' := recorded_run as k
  have hknows : (PopPc.erasing t j).Knows as s := h.knows _ (List.mem_of_getElem? hk)
  exact {
    order := by
      have hkeys := OrderedMap.keys_erase_of_head? finds
      have horder := h.order
      rw [hkeys] at horder
      rw [registered_append, successes_append]
      simpa [registered, successes] using horder
    arrived := by rw [hrec']; exact h.arrived
    knows := by
      intro p hp
      rcases mem_set_cases hp with rfl | hp
      · trivial
      · exact (h.knows p hp).mono (by rw [hrec']; exact List.Subset.refl _) fun r hr => Or.inl hr
    kept := by
      intro r hr
      rw [hrec'] at hr
      rw [successes_append]
      rcases h.kept r hr with hl | hs | hc
      · exact Or.inl hl
      · exact Or.inr (Or.inl (List.mem_append_left _ hs))
      · -- the call that had the record has given it out
        by_cases heq : PopPc.erasing r.rawTimestamp (.exported r.exportJsonstring) = .erasing t j
        · obtain ⟨rfl, rfl⟩ := PopPc.erasing.inj heq
          exact Or.inr (Or.inl (List.mem_append_right _ (List.mem_singleton_self _)))
        · exact Or.inr (Or.inr (mem_set_of_ne hc hk heq))
    own := by
      intro t' j' hs
      rw [successes_append] at hs
      rw [hrec']
      rcases List.mem_append.mp hs with hs | hs
      · exact h.own t' j' hs
      · obtain ⟨rfl, rfl⟩ := Prod.mk.inj (List.mem_singleton.mp hs)
        exact hknows
    defined := by simpa using h.defined }

theorem Kept.step (h : Kept as es s) (heff : Effect s a es' s') (hprompt : Prompt s a)
    (hreg : (registered (as ++ [a])).Pairwise (· < ·))
    (hrec : (recorded (as ++ [a])).Pairwise fun r r' => r.rawTimestamp < r'.rawTimestamp) :
    Kept (as ++ [a]) (es ++ es') s' := by
  cases heff with
  | tracked => exact h.step_tracked hreg
  | recorded => exact h.step_recorded hrec
  | called => exact h.step_called
  | looked hk looks => exact h.step_looked hk looks (hprompt _ hk)
  | popped hk => exact h.step_popped hk (hprompt _ hk)
  | erased hk => exact h.step_erased hk (hprompt _ hk)

/-! ### Every run -/

/-- **Frames and order are kept when every call finds what it saw.**  In every run in
which frames are registered and records reach the list in increasing timestamps, and
the steps of the calls find what the calls saw: the frames returned and the frames
still awaited are the registered ones in order; a JSON returned for a frame is that of
its own record, and every record is in the list, was returned for its frame, or is
about to be; the empty map is never read; and no call returns a frame whose record is
in the list with any other JSON. -/
theorem popExecInfo_keeps (run : Run (step true) Prompt .init as es s)
    (hreg : (registered as).Pairwise (· < ·))
    (hrec : (recorded as).Pairwise fun r r' => r.rawTimestamp < r'.rawTimestamp) :
    ((successes es).map Prod.fst ++ s.debugFrameInfos.keys = registered as ∧
      .emptyBegin ∉ es ∧
      (∀ t j, (t, .exported j) ∈ successes es →
        ∃ r ∈ recorded as, r.rawTimestamp = t ∧ r.exportJsonstring = j) ∧
      ∀ r ∈ recorded as, r ∈ s.recordList ∨
        (r.rawTimestamp, .exported r.exportJsonstring) ∈ successes es ∨
        .erasing r.rawTimestamp (.exported r.exportJsonstring) ∈ s.calls) ∧
    ∀ k s' es' t j, step true s (.runPopExecInfo k) = some (s', es') → .success t j ∈ es' →
      ∀ r ∈ s.recordList, r.rawTimestamp = t → j = .exported r.exportJsonstring := by
  have hkept : Kept as es s := by
    induction run with
    | nil => exact kept_init
    | snoc run ha hstep ih =>
      have hreg' := hreg
      have hrec' := hrec
      rw [registered_append] at hreg'
      rw [recorded_append] at hrec'
      exact (ih (List.pairwise_append.mp hreg').1 (List.pairwise_append.mp hrec').1).step
        (step_effect hstep) ha hreg hrec
  refine ⟨⟨hkept.order, hkept.defined, hkept.own, hkept.kept⟩, ?_⟩
  intro k s' es' t j hstep hs r hr ht
  have heff := step_effect hstep
  cases heff with
  | looked hk looks => cases looks <;> simp at hs
  | popped => simp at hs
  | erased hk =>
    obtain ⟨rfl, rfl⟩ := Event.success.inj (List.mem_singleton.mp hs)
    have hknows := hkept.knows _ (List.mem_of_getElem? hk)
    cases j with
    | exported j =>
      -- two records of one timestamp are one record
      obtain ⟨r', hr', ht', rfl⟩ := hknows
      have hnodup : ((recorded as).map RecordCache.rawTimestamp).Nodup :=
        List.pairwise_map.mpr (hrec.imp fun hlt => hlt.ne)
      rw [List.inj_on_of_nodup_map hnodup hr' (hkept.arrived r hr) (ht'.trans ht.symm)]
    | busyPipeline => exact absurd ht (hknows.2 r hr)

end

instance (s : State) : ∀ pc : PopPc, Decidable (pc.Finds s)
  | .tracking outlist => inferInstanceAs (Decidable (∃ t ∈ s.debugFrameInfos.keys.head?,
      ∀ r ∈ s.recordList, r.rawTimestamp = t → r = outlist))
  | .clearing outlist => inferInstanceAs (Decidable (s.recordList.head? = some outlist))
  | .erasing targetFrame _ =>
    inferInstanceAs (Decidable (s.debugFrameInfos.keys.head? = some targetFrame))
  | .testing => .isTrue trivial
  | .peeking => .isTrue trivial
  | .retesting _ => .isTrue trivial
  | .returned => .isTrue trivial

instance (s : State) : ∀ a, Decidable (Prompt s a)
  | .runPopExecInfo k => inferInstanceAs (Decidable (∀ pc ∈ s.calls[k]?, pc.Finds s))
  | .setTrackFrameState _ _ => .isTrue trivial
  | .moveOutputCache _ => .isTrue trivial
  | .popExecInfo => .isTrue trivial

/-- Three frames are awaited.  The record of the first is popped before the next one comes; the
second has none, and is returned as busy when the record of the third is there. -/
def threeFrames : List Action :=
  [.setTrackFrameState 1 .pushXgraphWaitResult, .setTrackFrameState 2 .pushXgraphWaitResult,
    .moveOutputCache ⟨1, "one"⟩, .popExecInfo, .runPopExecInfo 0, .runPopExecInfo 0,
    .runPopExecInfo 0, .setTrackFrameState 3 .pushXgraphWaitResult, .runPopExecInfo 0,
    .runPopExecInfo 0, .runPopExecInfo 0, .moveOutputCache ⟨3, "three"⟩,
    .popExecInfo, .runPopExecInfo 1, .runPopExecInfo 1, .runPopExecInfo 1, .runPopExecInfo 1,
    .popExecInfo, .runPopExecInfo 2, .runPopExecInfo 2, .runPopExecInfo 2, .runPopExecInfo 2,
    .runPopExecInfo 2]

/-- The frames are returned in their order, the last one is about to be. -/
theorem popExecInfo_keeps_threeFrames :
    let r := (exec (step true) Prompt .init threeFrames).get (by decide)
    (successes r.2).map Prod.fst ++ r.1.debugFrameInfos.keys = registered threeFrames ∧
      successes r.2 = [(1, .exported "one"), (2, .busyPipeline)] ∧ .emptyBegin ∉ r.2 ∧
      .erasing 3 (.exported "three") ∈ r.1.calls := by
  have run : Run (step true) Prompt .init threeFrames _ _ := Run.of_exec_get (by decide)
  have h := (popExecInfo_keeps run (by decide) (by decide)).1
  exact ⟨h.1, by decide, h.2.1, by decide⟩

/-- Two frames, whose records are both in the list when `PopExecInfo` is called; it is
called three times. -/
def pendingRecords : List Action :=
  [.setTrackFrameState 1 .pushXgraphWaitResult, .setTrackFrameState 2 .pushXgraphWaitResult,
    .moveOutputCache ⟨1, "one"⟩, .moveOutputCache ⟨2, "two"⟩,
    .popExecInfo, .runPopExecInfo 0, .runPopExecInfo 0, .runPopExecInfo 0, .runPopExecInfo 0,
    .popExecInfo, .runPopExecInfo 1, .runPopExecInfo 1, .runPopExecInfo 1, .runPopExecInfo 1,
    .runPopExecInfo 1, .runPopExecInfo 1,
    .popExecInfo, .runPopExecInfo 2, .runPopExecInfo 2, .runPopExecInfo 2]

/-- Frame 1 is returned as busy although its record stays in the list all the time, and
then the map of awaited frames is read while it is empty. -/
theorem pending_records :
    ∃ es s, Run (step true) (fun _ _ => True) .init pendingRecords es s ∧
      (registered pendingRecords).Pairwise (· < ·) ∧
      (recorded pendingRecords).Pairwise (fun r r' => r.rawTimestamp < r'.rawTimestamp) ∧
      (1, .busyPipeline) ∈ successes es ∧ ⟨1, "one"⟩ ∈ s.recordList ∧ .emptyBegin ∈ es :=
  ⟨_, _, Run.of_exec_get (by decide), by decide, by decide, by decide, by decide, by decide⟩

end ExecInfo

end XGraph
