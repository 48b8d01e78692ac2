/-
A graph with its callbacks and consumers running concurrently.

`RunningGraph` puts `BaseXGraph` together with the running calls of
`CallBackInferenceResult` and `GetOutputStreamCache`.  A call is interrupted at
every lock boundary: the section under `m_inference_lock`, the test of
`graph_started`, the section under `m_output_lock`, the unlocked test of the cache
size and the clean-up section are separate steps.  A callback that waits for room
in a blocking list keeps `m_output_lock` (`outputLock`), since the waiting loop of
`MoveOutputCache` is inside the guarded section.

* `step` — one step of one party, with the events it emits;
* `Effect`, `step_effect` — all that a step can do, said once.
-/
import HandTracking.BaseXGraph
import HandTracking.Library.Transition

namespace XGraph

variable {P : Type}

/-- Where a callback stands.  `stream` is the frame passed to `MoveOutputCache`. -/
inductive Pc where
  /-- before the section under `m_inference_lock` -/
  | matching
  /-- before `MoveOutputCache` tests `graph_started` -/
  | moving (stream : ℕ)
  /-- before the section under `m_output_lock` -/
  | locking (stream : ℕ)
  /-- in the waiting loop of a blocking list, holding `m_output_lock` -/
  | waiting (stream : ℕ)
  /-- before the test of the cache size -/
  | checking
  /-- before `CleanMediapipeDropedInferenceCache` -/
  | cleaning
  | returned
  deriving DecidableEq, Repr

/-- A call of `CallBackInferenceResult` with its local variables. -/
structure CallBack (P : Type) where
  outputPacksOrder : ℕ
  packet : Packet P
  matched : Matched := {}
  pc : Pc := .matching
  deriving DecidableEq, Repr

/-- The callback handed its frame to `MoveOutputCache`. -/
def CallBack.handsOn (cb : CallBack P) : Bool :=
  cb.matched.isMove || cb.matched.isPartedShared

/-- A call of `GetOutputStreamCache`: past the unlocked size test when `locking`. -/
structure Consumer where
  groudIndex : ℕ
  reuse : Bool
  locking : Bool
  deriving DecidableEq, Repr

/-- The graph with its callbacks and its consumers, which run in threads of their own. -/
structure RunningGraph (P : Type) where
  graph : BaseXGraph P
  callBacks : List (CallBack P)
  consumers : List Consumer
  /-- the callback that keeps `m_output_lock` between two of its steps -/
  outputLock : Option ℕ

/-- Before the graph starts. -/
def RunningGraph.init : RunningGraph P where
  graph := .init
  callBacks := []
  consumers := []
  outputLock := none

/-- The steps of the threads. -/
inductive Action (P : Type) where
  | setInputStreamCache (rawTimestamp : ℕ) (graphStreamStamp : Int)
  | clearInputStreamCache (graphStreamStamp : Int)
  | callBackInferenceResult (outputPacksOrder : ℕ) (packet : Packet P)
  | runCallBack (i : ℕ)
  | getOutputStreamCache (groudIndex : ℕ) (reuse : Bool)
  | runConsumer (j : ℕ)
  | setGraphStarted (started : Bool)
  deriving DecidableEq, Repr

/-- What happens to the frames. -/
inductive Event where
  | registered (stamp : Int) (f : ℕ)
  /-- dropped by the 900-frame cap -/
  | evicted (stamp : Int) (f : ℕ)
  | cleared (stamp : Int)
  /-- a callback completed the frame -/
  | finished (i f : ℕ)
  /-- dropped by `CleanMediapipeDropedInferenceCache` -/
  | cleaned (stamp : Int) (f : ℕ)
  | pushed (i groudIndex f : ℕ)
  /-- `GetOutputStreamCache` returned -/
  | got (groudIndex : ℕ) (reuse : Bool) (ret : Option ℕ)
  deriving DecidableEq, Repr

namespace RunningGraph

/-- A callback goes on. -/
def setCallBack (s : RunningGraph P) (i : ℕ) (cb : CallBack P) : RunningGraph P :=
  { s with callBacks := s.callBacks.set i cb }

/-- The section of `MoveOutputCache` under `m_output_lock`. -/
def moveOutputCache (s : RunningGraph P) (L : Layout) (i : ℕ) (cb : CallBack P) (stream : ℕ) :
    RunningGraph P × List Event :=
  let groudIndex := L.groudIndex cb.outputPacksOrder
  match (L.cleanPolicy groudIndex).move s.graph.graphStarted
      (s.graph.outputStreamGroudCache groudIndex) stream with
  | .pushed list =>
    ({ s with
        graph := { s.graph with
          outputStreamGroudCache :=
            Function.update s.graph.outputStreamGroudCache groudIndex list }
        callBacks := s.callBacks.set i { cb with pc := .checking }
        outputLock := none }, [.pushed i groudIndex stream])
  | .dropped =>
    ({ s with
        callBacks := s.callBacks.set i { cb with pc := .checking }
        outputLock := none }, [])
  | .wait =>
    ({ s with
        callBacks := s.callBacks.set i { cb with pc := .waiting stream }
        outputLock := some i }, [])

/-- The next step of callback `i`. -/
def runCallBack (s : RunningGraph P) (L : Layout) (i : ℕ) (cb : CallBack P) :
    Option (RunningGraph P × List Event) :=
  match cb.pc with
  | .matching =>
    let (graph, matched) := matchStream L s.graph cb.outputPacksOrder cb.packet
    let next : Pc :=
      match matched.cache with
      | some stream =>
        if matched.isMove || matched.isPartedShared then .moving stream else .checking
      | none => .checking
    some ({ s with
        graph := graph
        callBacks := s.callBacks.set i { cb with matched := matched, pc := next } },
      match matched.cache with
      | some stream => if matched.isFinish then [.finished i stream] else []
      | none => [])
  | .moving stream =>
    some (s.setCallBack i { cb with
      pc := if s.graph.graphStarted then .locking stream else .checking }, [])
  | .locking stream =>
    if s.outputLock = none then some (s.moveOutputCache L i cb stream) else none
  -- the lock is already held
  | .waiting stream => some (s.moveOutputCache L i cb stream)
  | .checking =>
    some (s.setCallBack i { cb with
      pc := if L.groudSize = 1 ∧ minGlobalCacheDepth ≤ s.graph.inferenceStreamCache.size
        then .cleaning else .returned }, [])
  | .cleaning =>
    let cache := cleanMediapipeDropedInferenceCache s.graph.inferenceStreamCache
      cb.packet.timestamp
    some ({ s with
        graph := { s.graph with inferenceStreamCache := cache }
        callBacks := s.callBacks.set i { cb with pc := .returned } },
      (s.graph.inferenceStreamCache.removed cache).map fun e => .cleaned e.1 e.2)
  | .returned => none

/-- `front()` of the list of the group, popped unless `reuse`.  On an empty list
`front()` is undefined; the model returns no frame then. -/
def takeOutput (s : RunningGraph P) (groudIndex : ℕ) (reuse : Bool) : RunningGraph P × List Event :=
  let list := s.graph.outputStreamGroudCache groudIndex
  ({ s with
      graph := { s.graph with
        outputStreamGroudCache := Function.update s.graph.outputStreamGroudCache groudIndex
          (if reuse then list else list.tail) } },
    [.got groudIndex reuse list.head?])

end RunningGraph

/-- One step of one party. -/
def step (L : Layout) (s : RunningGraph P) : Action P → Option (RunningGraph P × List Event)
  | .setInputStreamCache raw stamp =>
    match setInputStreamCache L s.graph raw stamp with
    | (.success, graph) =>
      some ({ s with graph := graph },
        .registered stamp s.graph.heapSize ::
          ((s.graph.inferenceStreamCache.insert stamp s.graph.heapSize).removed
            graph.inferenceStreamCache).map fun e => .evicted e.1 e.2)
    | (.failure, graph) => some ({ s with graph := graph }, [])
  | .clearInputStreamCache stamp =>
    some ({ s with graph := (clearInputStreamCache s.graph stamp).2 }, [.cleared stamp])
  | .callBackInferenceResult order packet =>
    some ({ s with
      callBacks := s.callBacks ++ [{ outputPacksOrder := order, packet := packet }] }, [])
  | .runCallBack i => (s.callBacks[i]?).bind (s.runCallBack L i)
  | .getOutputStreamCache g reuse =>
    -- an unknown group or an empty list returns at once, without the lock
    if L.groudSize ≤ g ∨ s.graph.outputStreamGroudCache g = [] then
      some ({ s with consumers := s.consumers ++ [⟨g, reuse, false⟩] }, [.got g reuse none])
    else some ({ s with consumers := s.consumers ++ [⟨g, reuse, true⟩] }, [])
  | .runConsumer j =>
    (s.consumers[j]?).bind fun c =>
      if c.locking ∧ s.outputLock = none then
        let (s, es) := s.takeOutput c.groudIndex c.reuse
        some ({ s with consumers := s.consumers.set j { c with locking := false } }, es)
      else none
  | .setGraphStarted started =>
    some ({ s with graph := { s.graph with graphStarted := started } }, [])

/-! ### All that a step can do -/

/-- The effect of one step: who moved, from which position, and what changed. -/
inductive Effect (L : Layout) (s : RunningGraph P) : Action P → List Event → RunningGraph P → Prop
  | registered {raw t} (started : s.graph.graphStarted = true)
      (fresh : s.graph.inferenceStreamCache.find? t = none) :
      Effect L s (.setInputStreamCache raw t)
        (.registered t s.graph.heapSize ::
          ((s.graph.inferenceStreamCache.insert t s.graph.heapSize).removed
            (cleanGraphNoResultInferenceCache
              (s.graph.inferenceStreamCache.insert t s.graph.heapSize) t)).map
            fun e => .evicted e.1 e.2)
        { s with graph := { s.graph with
            heap := Function.update s.graph.heap s.graph.heapSize
              (.init raw L.outputStreamNum)
            heapSize := s.graph.heapSize + 1
            inferenceStreamCache := cleanGraphNoResultInferenceCache
              (s.graph.inferenceStreamCache.insert t s.graph.heapSize) t } }
  | notRegistered {raw t} (why : s.graph.graphStarted = false ∨
      ∃ f, s.graph.inferenceStreamCache.find? t = some f) :
      Effect L s (.setInputStreamCache raw t) [] s
  | cleared {t} :
      Effect L s (.clearInputStreamCache t) [.cleared t]
        { s with graph := { s.graph with
            inferenceStreamCache := s.graph.inferenceStreamCache.erase t } }
  | called {o p} :
      Effect L s (.callBackInferenceResult o p) []
        { s with callBacks := s.callBacks ++ [{ outputPacksOrder := o, packet := p }] }
  | unmatched {i cb} (hi : s.callBacks[i]? = some cb) (pc : cb.pc = .matching)
      (missing : s.graph.inferenceStreamCache.find? cb.packet.timestamp = none) :
      Effect L s (.runCallBack i) []
        { s with callBacks := s.callBacks.set i { cb with matched := {}, pc := .checking } }
  | matched {i cb f m frame} (hi : s.callBacks[i]? = some cb) (pc : cb.pc = .matching)
      (found : s.graph.inferenceStreamCache.find? cb.packet.timestamp = some f)
      (hframe : frame = (s.graph.heap f).deliver cb.outputPacksOrder cb.packet)
      (hcache : m.cache = some f)
      (hands : (m.isMove || m.isPartedShared) =
        groudComplete L frame cb.outputPacksOrder) :
      Effect L s (.runCallBack i) (if frame.full then [.finished i f] else [])
        { s with
          graph := { s.graph with
            heap := Function.update s.graph.heap f frame
            inferenceStreamCache :=
              if frame.full then s.graph.inferenceStreamCache.erase cb.packet.timestamp
              else s.graph.inferenceStreamCache }
          callBacks := s.callBacks.set i { cb with
            matched := m
            pc := if m.isMove || m.isPartedShared then .moving f else .checking } }
  | tested {i cb f} (hi : s.callBacks[i]? = some cb) (pc : cb.pc = .moving f) :
      Effect L s (.runCallBack i) []
        (s.setCallBack i { cb with
          pc := if s.graph.graphStarted then .locking f else .checking })
  | pushed {i cb f list} (hi : s.callBacks[i]? = some cb)
      (pc : cb.pc = .locking f ∧ s.outputLock = none ∨ cb.pc = .waiting f)
      (hmove : (L.cleanPolicy (L.groudIndex cb.outputPacksOrder)).move s.graph.graphStarted
        (s.graph.outputStreamGroudCache (L.groudIndex cb.outputPacksOrder)) f =
          .pushed list) :
      Effect L s (.runCallBack i) [.pushed i (L.groudIndex cb.outputPacksOrder) f]
        { s with
          graph := { s.graph with
            outputStreamGroudCache := Function.update s.graph.outputStreamGroudCache
              (L.groudIndex cb.outputPacksOrder) list }
          callBacks := s.callBacks.set i { cb with pc := .checking }
          outputLock := none }
  | dropped {i cb f} (hi : s.callBacks[i]? = some cb)
      (pc : cb.pc = .locking f ∧ s.outputLock = none ∨ cb.pc = .waiting f)
      (hmove : (L.cleanPolicy (L.groudIndex cb.outputPacksOrder)).move s.graph.graphStarted
        (s.graph.outputStreamGroudCache (L.groudIndex cb.outputPacksOrder)) f = .dropped) :
      Effect L s (.runCallBack i) []
        { s with
          callBacks := s.callBacks.set i { cb with pc := .checking }
          outputLock := none }
  | waits {i cb f} (hi : s.callBacks[i]? = some cb)
      (pc : cb.pc = .locking f ∧ s.outputLock = none ∨ cb.pc = .waiting f)
      (hmove : (L.cleanPolicy (L.groudIndex cb.outputPacksOrder)).move s.graph.graphStarted
        (s.graph.outputStreamGroudCache (L.groudIndex cb.outputPacksOrder)) f = .wait) :
      Effect L s (.runCallBack i) []
        { s with
          callBacks := s.callBacks.set i { cb with pc := .waiting f }
          outputLock := some i }
  | checked {i cb} (hi : s.callBacks[i]? = some cb) (pc : cb.pc = .checking) :
      Effect L s (.runCallBack i) []
        (s.setCallBack i { cb with
          pc := if L.groudSize = 1 ∧ minGlobalCacheDepth ≤ s.graph.inferenceStreamCache.size
            then .cleaning else .returned })
  | cleaned {i cb} (hi : s.callBacks[i]? = some cb) (pc : cb.pc = .cleaning) :
      Effect L s (.runCallBack i)
        ((s.graph.inferenceStreamCache.removed (cleanMediapipeDropedInferenceCache
          s.graph.inferenceStreamCache cb.packet.timestamp)).map fun e => .cleaned e.1 e.2)
        { s with
          graph := { s.graph with
            inferenceStreamCache := cleanMediapipeDropedInferenceCache
              s.graph.inferenceStreamCache cb.packet.timestamp }
          callBacks := s.callBacks.set i { cb with pc := .returned } }
  | gotNothing {g reuse} (why : L.groudSize ≤ g ∨ s.graph.outputStreamGroudCache g = []) :
      Effect L s (.getOutputStreamCache g reuse) [.got g reuse none]
        { s with consumers := s.consumers ++ [⟨g, reuse, false⟩] }
  | asked {g reuse} (hg : g < L.groudSize) (hlist : s.graph.outputStreamGroudCache g ≠ []) :
      Effect L s (.getOutputStreamCache g reuse) []
        { s with consumers := s.consumers ++ [⟨g, reuse, true⟩] }
  | got {j c} (hj : s.consumers[j]? = some c) (locking : c.locking = true)
      (free : s.outputLock = none) :
      Effect L s (.runConsumer j)
        [.got c.groudIndex c.reuse (s.graph.outputStreamGroudCache c.groudIndex).head?]
        { s with
          graph := { s.graph with
            outputStreamGroudCache := Function.update s.graph.outputStreamGroudCache
              c.groudIndex (if c.reuse then s.graph.outputStreamGroudCache c.groudIndex
                else (s.graph.outputStreamGroudCache c.groudIndex).tail) }
          consumers := s.consumers.set j { c with locking := false } }
  | setGraphStarted {b} :
      Effect L s (.setGraphStarted b) [] { s with graph := { s.graph with graphStarted := b } }

section

variable {L : Layout} {s s' : RunningGraph P} {a : Action P} {es : List Event}

theorem moveOutputCache_effect {i f : ℕ} {cb : CallBack P} (hi : s.callBacks[i]? = some cb)
    (pc : cb.pc = .locking f ∧ s.outputLock = none ∨ cb.pc = .waiting f) :
    Effect L s (.runCallBack i) (s.moveOutputCache L i cb f).2 (s.moveOutputCache L i cb f).1 := by
  rw [RunningGraph.moveOutputCache]
  cases hmove : (L.cleanPolicy (L.groudIndex cb.outputPacksOrder)).move s.graph.graphStarted
      (s.graph.outputStreamGroudCache (L.groudIndex cb.outputPacksOrder)) f with
  | pushed list => exact .pushed hi pc hmove
  | dropped => exact .dropped hi pc hmove
  | wait => exact .waits hi pc hmove

theorem runCallBack_effect {i : ℕ} {cb : CallBack P} (hi : s.callBacks[i]? = some cb)
    (h : s.runCallBack L i cb = some (s', es)) : Effect L s (.runCallBack i) es s' := by
  rw [RunningGraph.runCallBack] at h
  cases hpc : cb.pc with
  | matching =>
    simp only [hpc, Option.some_inj, Prod.mk.injEq] at h
    obtain ⟨rfl, rfl⟩ := h
    rcases hf : s.graph.inferenceStreamCache.find? cb.packet.timestamp with _ | f
    · rw [matchStream_none hf]
      exact .unmatched hi hpc hf
    · obtain ⟨hg, hc, hfin, hhands⟩ :=
        matchStream_some (L := L) (o := cb.outputPacksOrder) hf
      rw [hg, hc, hfin]
      exact .matched hi hpc hf rfl hc hhands
  | moving f =>
    simp only [hpc, Option.some_inj, Prod.mk.injEq] at h
    obtain ⟨rfl, rfl⟩ := h
    exact .tested hi hpc
  | locking f =>
    simp only [hpc] at h
    split_ifs at h with hlock
    rw [Option.some_inj] at h
    have := moveOutputCache_effect (L := L) hi (Or.inl ⟨hpc, hlock⟩)
    rwa [h] at this
  | waiting f =>
    simp only [hpc, Option.some_inj] at h
    have := moveOutputCache_effect (L := L) hi (Or.inr hpc)
    rwa [h] at this
  | checking =>
    simp only [hpc, Option.some_inj, Prod.mk.injEq] at h
    obtain ⟨rfl, rfl⟩ := h
    exact .checked hi hpc
  | cleaning =>
    simp only [hpc, Option.some_inj, Prod.mk.injEq] at h
    obtain ⟨rfl, rfl⟩ := h
    exact .cleaned hi hpc
  | returned => simp [hpc] at h

/-- **The inversion lemma of `step`.** -/
theorem step_effect (h : step L s a = some (s', es)) : Effect L s a es s' := by
  cases a with
  | setInputStreamCache raw t =>
    rcases setInputStreamCache_cases L s.graph raw t with ⟨hs, hf, heq⟩ | ⟨hw, heq⟩
    · simp only [step, heq, Option.some_inj, Prod.mk.injEq] at h
      obtain ⟨rfl, rfl⟩ := h
      exact .registered hs hf
    · simp only [step, heq, Option.some_inj, Prod.mk.injEq] at h
      obtain ⟨rfl, rfl⟩ := h
      exact .notRegistered hw
  | clearInputStreamCache t =>
    simp only [step, clearInputStreamCache, Option.some_inj, Prod.mk.injEq] at h
    obtain ⟨rfl, rfl⟩ := h
    exact .cleared
  | callBackInferenceResult o p =>
    simp only [step, Option.some_inj, Prod.mk.injEq] at h
    obtain ⟨rfl, rfl⟩ := h
    exact .called
  | runCallBack i =>
    obtain ⟨cb, hi, h⟩ := Option.bind_eq_some_iff.mp h
    exact runCallBack_effect hi h
  | getOutputStreamCache g reuse =>
    rw [step] at h
    split_ifs at h with hw
    · obtain ⟨rfl, rfl⟩ := Prod.mk.inj (Option.some.inj h)
      exact .gotNothing hw
    · obtain ⟨rfl, rfl⟩ := Prod.mk.inj (Option.some.inj h)
      push Not at hw
      exact .asked hw.1 hw.2
  | runConsumer j =>
    obtain ⟨c, hj, h⟩ := Option.bind_eq_some_iff.mp h
    split_ifs at h with hc
    obtain ⟨rfl, rfl⟩ := Prod.mk.inj (Option.some.inj h)
    exact .got hj hc.1 hc.2
  | setGraphStarted b =>
    simp only [step, Option.some_inj, Prod.mk.injEq] at h
    obtain ⟨rfl, rfl⟩ := h
    exact .setGraphStarted

end

end XGraph
