/-
The pipelines of an archive.

After the shared configuration, every file of the archive whose name ends with `.txt` gives a
pipeline, with features from the parts of its name.  The code relies on three parts, on a list of
names that is not freed when it cannot be finished, and on files that can be read; it goes back to
the list of pipelines as it was only if nothing has been added yet.

* `graphLoop` — the pipelines of a list of names;
* `analysis` — the whole archive;
* `AnalysisSound` — no part that is not there, no freed list, and `false` changes nothing;
* `analysis_iff` — the archives for which this holds.
-/
import HandTracking.SharedConfig
import HandTracking.MicrotarListing
import Mathlib.Data.List.Infix
import Mathlib.Data.List.TakeWhile

namespace AnalysisTar

open Microtar

/-! ### Pipelines -/

/-- `FrameworkType` -/
inductive FrameworkType where
  | unknown
  | xrealSimpleSerial
  | xgraph
  deriving DecidableEq, Repr

/-- `PipelineRelatedFeature`: the four words that `Analysis` takes from the name of a graph file. -/
structure PipelineRelatedFeature where
  bindMonoBino : Bytes
  bindGlass : Bytes
  bindSensorOrientation : Bytes
  bindRuntime : Bytes
  deriving DecidableEq, Repr

/-- `PipelineConfig`, of which `Analysis` makes one for each graph file. -/
structure PipelineConfig where
  pipelineName : Bytes
  frameworkType : FrameworkType
  graphConfig : Bytes
  globalSharedConfig : GlobalSharedConfig
  relatedFeature : PipelineRelatedFeature

/-- How the analysis ends, unless it is stopped before. -/
inductive Outcome where
  | returned (success : Bool)
  /-- The part with the number, of fewer parts. -/
  | indexed (i n : ℕ)
  | walkedFreed
  deriving DecidableEq, Repr

/-- The parts of a name, up to its first dot. -/
def graphInfoList (name : Bytes) : List Bytes := ((name.splitOn 46).headD []).splitOn 95

/-- `kGlassesSensorOrientationMap`. -/
def sensorOrientation (glass : Bytes) : Bytes :=
  if glass = ascii "flora" then ascii "vertical"
  else if glass = ascii "ella" then ascii "horizontal"
  else if glass = ascii "gina" then ascii "horizontal"
  else []

/-- An element of an array, or the index and the length of the array. -/
def indexPart (parts : List Bytes) (i : ℕ) : Except Outcome Bytes :=
  match parts[i]? with
  | some part => .ok part
  | none => .error (.indexed i parts.length)

/-- The features that the name of a graph file tells, between its underscores. -/
def relatedFeature (name : Bytes) : Except Outcome PipelineRelatedFeature := do
  let glass ← indexPart (graphInfoList name) 1
  let runtime ← indexPart (graphInfoList name) 2
  pure ⟨if ascii "mono" <:+: name then ascii "mono" else ascii "bino", glass,
    sensorOrientation glass, runtime⟩

section Code

-- `Reader::parse`, `FastWriter`, `md5str` of `md5`, OpenSSL's cipher; and what `malloc` and the
-- array on the stack hold at first, for each model
variable (parse : Bytes → Option Json) (write : Json → Bytes) (md5 : Bytes → Bytes)
  (cipher : Aes.Key → Equiv.Perm Block) (arc : Archive) (unset : BitVec 32 → Unset) (fuel : ℕ)
  (fresh : ℕ → Buffer) (stack : ℕ → Aes.Key)

/-- The loop over the names, with the pipelines that there are. -/
def graphLoop (shared : GlobalSharedConfig) :
    List Bytes → List PipelineConfig → Code (Outcome × List PipelineConfig)
  | [], configs => pure (.returned true, configs)
  | name :: names, configs => do
    match ← find arc unset fuel name with
    | none => graphLoop shared names configs
    | some h => do
      match ← memReadData arc unset h.size with
      | none => pure (.returned false, configs)
      | some data =>
        match relatedFeature name with
        | .error out => pure (out, configs)
        | .ok feature =>
          graphLoop shared names (configs ++ [⟨name, .xgraph, data, shared, feature⟩])

/-- The names with the suffix, and the loop over them.  A list that has been freed still has its
size. -/
def graphs (shared : GlobalSharedConfig) (configs : List PipelineConfig) :
    Code (Outcome × List PipelineConfig) := do
  match ← call arc (mtarGetFilteredFilenames unset fuel (some (ascii ".txt"))) with
  | .ok (some (names, .ok ())) => graphLoop arc unset fuel shared names configs
  | .ok (some ([], .error _)) => pure (.returned true, configs)
  | .ok (some (_ :: _, .error _)) => pure (.walkedFreed, configs)
  | _ => throw .searching

/-- The configuration that the pipelines share, unless `false` is returned. -/
def loadShared : Code (Option GlobalSharedConfig) := do
  let _ ← call arc (mtarReadHeader unset)
  match ← call arc (mtarReadHeader unset) with
  | .error _ => pure none
  | .ok _ => do
    match ← find arc unset fuel (ascii "global_shared_config.json") with
    | none => pure none
    | some h => do
      match ← memReadData arc unset h.size with
      | none => pure none
      | some text =>
        match parse text with
        | none => pure none
        | some root => generateGlobalSharedConfig write md5 cipher arc unset fuel fresh stack root

/-- `Analysis`: the shared configuration first, then one pipeline for each graph file of the
archive. -/
def analysis (configs : List PipelineConfig) : Code (Outcome × List PipelineConfig) := do
  match ← loadShared parse write md5 cipher arc unset fuel fresh stack with
  | none => pure (.returned false, configs)
  | some shared => graphs arc unset fuel shared configs

end Code

/-- No part of a name is read that is not there, no freed list is walked, and `false` leaves the
pipelines as they were. -/
structure AnalysisSound (configs : List PipelineConfig)
    (out : Except Stop (Outcome × List PipelineConfig)) : Prop where
  not_indexed : ∀ i n configs', out ≠ .ok (.indexed i n, configs')
  not_walkedFreed : ∀ configs', out ≠ .ok (.walkedFreed, configs')
  unchanged : ∀ configs', out = .ok (.returned false, configs') → configs' = configs

section Fits

variable (arc : Archive) (unset : BitVec 32 → Unset) (fuel : ℕ)

/-- The data of the file with the name end before the last byte of the archive. -/
def Readable (name : Bytes) : Prop :=
  ∀ p h, arc.findFrom unset (cString name) fuel 0 = .ok (some (p, h)) →
    p.toNat + 512 + h.size.toNat < arc.len

/-- All files can be read and have names of three parts, or the first cannot be read. -/
def GraphsFit (names : List Bytes) : Prop :=
  (∀ name ∈ names, Readable arc unset fuel name ∧ 3 ≤ (graphInfoList name).length) ∨
    ∃ name rest, names = name :: rest ∧ ¬ Readable arc unset fuel name

/-- The list of the names is finished and fits; or an error ends it while it is empty, or a header
stops the code whose texts leave it. -/
def ListFits : Prop :=
  ∀ names err, arc.listFrom unset (some (ascii ".txt")) fuel [] 0 = some (names, err) →
    (err = .nullRecord → GraphsFit arc unset fuel names) ∧
      (err ≠ .nullRecord → err = .overrun ∨ names = [])

end Fits

section Proofs

variable {arc : Archive} {unset : BitVec 32 → Unset} {fuel : ℕ} {shared : GlobalSharedConfig}
  {configs configs' added : List PipelineConfig} {name : Bytes} {names : List Bytes}
  {p : BitVec 32} {h : MtarHeader} {s : Mtar × ℕ}

/-! ### How the analysis ends -/

theorem sound_error (stop : Stop) : AnalysisSound configs (.error stop) :=
  ⟨fun _ _ _ => nofun, fun _ => nofun, fun _ => nofun⟩

theorem sound_true : AnalysisSound configs (.ok (.returned true, configs')) :=
  ⟨fun _ _ _ => by simp, fun _ => by simp, fun _ => by simp⟩

theorem sound_false_iff :
    AnalysisSound configs (.ok (.returned false, configs')) ↔ configs' = configs :=
  ⟨fun hsound => hsound.unchanged _ rfl, fun heq =>
    ⟨fun _ _ _ => by simp, fun _ => by simp, fun _ hout => by cases hout; exact heq⟩⟩

theorem not_sound_indexed {i n : ℕ} : ¬ AnalysisSound configs (.ok (.indexed i n, configs')) :=
  fun hsound => hsound.not_indexed i n configs' rfl

theorem not_sound_walkedFreed : ¬ AnalysisSound configs (.ok (.walkedFreed, configs')) :=
  fun hsound => hsound.not_walkedFreed configs' rfl

/-! ### Names -/

theorem indexPart_of_lt {parts : List Bytes} {i : ℕ} (hi : i < parts.length) :
    ∃ part, indexPart parts i = .ok part := by
  unfold indexPart
  rw [List.getElem?_eq_getElem hi]
  exact ⟨_, rfl⟩

theorem indexPart_of_le {parts : List Bytes} {i : ℕ} (hi : parts.length ≤ i) :
    indexPart parts i = .error (.indexed i parts.length) := by
  unfold indexPart
  rw [List.getElem?_eq_none hi]

theorem relatedFeature_of_le (hparts : 3 ≤ (graphInfoList name).length) :
    ∃ feature, relatedFeature name = .ok feature := by
  obtain ⟨glass, hglass⟩ := indexPart_of_lt (show 1 < (graphInfoList name).length by omega)
  obtain ⟨runtime, hruntime⟩ := indexPart_of_lt (show 2 < (graphInfoList name).length by omega)
  unfold relatedFeature
  rw [hglass, hruntime]
  exact ⟨_, rfl⟩

theorem relatedFeature_of_lt (hparts : (graphInfoList name).length < 3) :
    ∃ i n, relatedFeature name = .error (.indexed i n) := by
  unfold relatedFeature
  by_cases hone : (graphInfoList name).length ≤ 1
  · rw [indexPart_of_le hone]
    exact ⟨_, _, rfl⟩
  · obtain ⟨glass, hglass⟩ := indexPart_of_lt (Nat.lt_of_not_le hone)
    rw [hglass, indexPart_of_le (Nat.le_of_lt_succ hparts)]
    exact ⟨_, _, rfl⟩

theorem cString_name (hh : arc.headerAt unset p = .ok h) : cString h.name = h.name := by
  obtain ⟨-, hraw⟩ := Archive.headerAt_ok hh
  exact cString_of_copyTexts (rawToHeader_ok hraw).1

/-- A file that is listed is found. -/
theorem findFrom_of_listFrom {suffix : Option Bytes} {acc : List Bytes} {err : MtarErr}
    (hlist : arc.listFrom unset suffix fuel acc p = some (names, err)) (hname : name ∈ names) :
    name ∈ acc ∨ ∃ q h, arc.findFrom unset name fuel p = .ok (some (q, h)) := by
  induction fuel generalizing acc p with
  | zero => cases hlist
  | succ fuel ih =>
    unfold Archive.listFrom at hlist
    unfold Archive.findFrom
    cases hh : arc.headerAt unset p with
    | error err' =>
      rw [hh] at hlist
      cases hlist
      exact .inl hname
    | ok header =>
      rw [hh] at hlist
      dsimp only at hlist ⊢
      by_cases heq : header.name = name
      · rw [if_pos heq]
        exact .inr ⟨_, _, rfl⟩
      · rw [if_neg heq]
        refine (ih hlist).imp_left fun hacc => ?_
        split_ifs at hacc
        · obtain hacc | hlast := List.mem_append.mp hacc
          · exact hacc
          · exact absurd (List.mem_singleton.mp hlast).symm heq
        · exact hacc

theorem found_of_listed {suffix : Option Bytes} {err : MtarErr}
    (hlist : arc.listFrom unset suffix fuel [] 0 = some (names, err)) (hname : name ∈ names) :
    ∃ q h, arc.findFrom unset (cString name) fuel 0 = .ok (some (q, h)) := by
  obtain hnil | ⟨q, h, hfound⟩ := findFrom_of_listFrom hlist hname
  · cases hnil
  · obtain ⟨hh, rfl⟩ := Archive.headerAt_of_findFrom hfound
    exact ⟨q, h, by rwa [cString_name hh]⟩

/-! ### The loop over the names -/

theorem readable_iff
    (hfound : arc.findFrom unset (cString name) fuel 0 = .ok (some (p, h))) :
    Readable arc unset fuel name ↔ p.toNat + 512 + h.size.toNat < arc.len := by
  refine ⟨fun hread => hread p h hfound, fun hlt q h' hfound' => ?_⟩
  rw [hfound] at hfound'
  cases hfound'
  exact hlt

theorem graphLoop_of_unreadable
    (hfound : arc.findFrom unset (cString name) fuel 0 = .ok (some (p, h)))
    (hread : ¬ Readable arc unset fuel name) :
    (graphLoop arc unset fuel shared (name :: names) configs).run' s =
      .ok (.returned false, configs) := by
  obtain ⟨s', hdata⟩ := run_memReadData (Archive.headerAt_of_findFrom hfound).1
  rw [readable_iff hfound] at hread
  rw [dataRead_of_le (by omega)] at hdata
  unfold graphLoop
  rw [StateT.run'_eq, run_bind_ok (run_find_ok hfound)]
  dsimp only
  rw [run_bind_ok hdata]
  rfl

theorem graphLoop_of_missing {out : Outcome}
    (hfound : arc.findFrom unset (cString name) fuel 0 = .ok (some (p, h)))
    (hread : Readable arc unset fuel name) (hout : relatedFeature name = .error out) :
    (graphLoop arc unset fuel shared (name :: names) configs).run' s = .ok (out, configs) := by
  obtain ⟨s', hdata⟩ := run_memReadData (Archive.headerAt_of_findFrom hfound).1
  rw [dataRead_of_lt ((readable_iff hfound).mp hread)] at hdata
  rw [graphLoop, StateT.run'_eq, run_bind_ok (run_find_ok hfound)]
  dsimp only
  rw [run_bind_ok hdata]
  dsimp only
  rw [hout]
  rfl

theorem graphLoop_of_readable (shared : GlobalSharedConfig) (names : List Bytes)
    (configs : List PipelineConfig) (s : Mtar × ℕ) {feature : PipelineRelatedFeature}
    (hfound : arc.findFrom unset (cString name) fuel 0 = .ok (some (p, h)))
    (hread : Readable arc unset fuel name) (hfeature : relatedFeature name = .ok feature) :
    ∃ config s', (graphLoop arc unset fuel shared (name :: names) configs).run' s =
      (graphLoop arc unset fuel shared names (configs ++ [config])).run' s' := by
  obtain ⟨s', hdata⟩ := run_memReadData (Archive.headerAt_of_findFrom hfound).1
  rw [dataRead_of_lt ((readable_iff hfound).mp hread)] at hdata
  refine ⟨⟨name, .xgraph, dataAt arc p h.size, shared, feature⟩, s', ?_⟩
  rw [graphLoop, StateT.run'_eq, run_bind_ok (run_find_ok hfound)]
  dsimp only
  rw [run_bind_ok hdata]
  dsimp only
  rw [hfeature]
  rfl

/-- Once there is a new pipeline, all files that follow must be read and have their parts. -/
theorem graphLoop_sound_iff_of_added
    (hfound : ∀ name ∈ names, ∃ p h, arc.findFrom unset (cString name) fuel 0 = .ok (some (p, h)))
    (hadded : added ≠ []) :
    AnalysisSound configs ((graphLoop arc unset fuel shared names (configs ++ added)).run' s) ↔
      ∀ name ∈ names, Readable arc unset fuel name ∧ 3 ≤ (graphInfoList name).length := by
  induction names generalizing added s with
  | nil => exact iff_of_true sound_true (by simp)
  | cons name names ih =>
    obtain ⟨p, h, hname⟩ := hfound name (List.mem_cons_self ..)
    by_cases hread : Readable arc unset fuel name
    · by_cases hparts : 3 ≤ (graphInfoList name).length
      · obtain ⟨feature, hfeature⟩ := relatedFeature_of_le hparts
        obtain ⟨config, s', hrun⟩ := graphLoop_of_readable shared names (configs ++ added) s hname
          hread hfeature
        rw [hrun, List.append_assoc,
          ih (fun n hn => hfound n (List.mem_cons_of_mem _ hn)) (by simp)]
        simp [hread, hparts]
      · obtain ⟨i, n, hout⟩ := relatedFeature_of_lt (Nat.lt_of_not_le hparts)
        rw [graphLoop_of_missing hname hread hout]
        exact iff_of_false not_sound_indexed fun hall =>
          hparts (hall name (List.mem_cons_self ..)).2
    · rw [graphLoop_of_unreadable hname hread, sound_false_iff]
      exact iff_of_false (by simpa using hadded) fun hall =>
        hread (hall name (List.mem_cons_self ..)).1

theorem graphsFit_cons_iff (hread : Readable arc unset fuel name) :
    GraphsFit arc unset fuel (name :: names) ↔
      3 ≤ (graphInfoList name).length ∧
        ∀ name ∈ names, Readable arc unset fuel name ∧ 3 ≤ (graphInfoList name).length := by
  unfold GraphsFit
  rw [List.forall_mem_cons]
  constructor
  · rintro (⟨⟨-, hparts⟩, hall⟩ | ⟨name', rest, heq, hunread⟩)
    · exact ⟨hparts, hall⟩
    · cases heq
      exact absurd hread hunread
  · exact fun ⟨hparts, hall⟩ => .inl ⟨⟨hread, hparts⟩, hall⟩

/-- Before there is a new pipeline, a file that cannot be read does no harm. -/
theorem graphLoop_sound_iff
    (hfound : ∀ name ∈ names, ∃ p h, arc.findFrom unset (cString name) fuel 0 = .ok (some (p, h))) :
    AnalysisSound configs ((graphLoop arc unset fuel shared names configs).run' s) ↔
      GraphsFit arc unset fuel names := by
  cases names with
  | nil => exact iff_of_true sound_true (.inl (by simp))
  | cons name names =>
    obtain ⟨p, h, hname⟩ := hfound name (List.mem_cons_self ..)
    by_cases hread : Readable arc unset fuel name
    · rw [graphsFit_cons_iff hread]
      by_cases hparts : 3 ≤ (graphInfoList name).length
      · obtain ⟨feature, hfeature⟩ := relatedFeature_of_le hparts
        obtain ⟨config, s', hrun⟩ := graphLoop_of_readable shared names configs s hname hread
          hfeature
        rw [hrun, graphLoop_sound_iff_of_added
          (fun n hn => hfound n (List.mem_cons_of_mem _ hn)) (List.cons_ne_nil _ _)]
        simp [hparts]
      · obtain ⟨i, n, hout⟩ := relatedFeature_of_lt (Nat.lt_of_not_le hparts)
        rw [graphLoop_of_missing hname hread hout]
        exact iff_of_false not_sound_indexed fun hall => hparts hall.1
    · rw [graphLoop_of_unreadable hname hread]
      exact iff_of_true (sound_false_iff.mpr rfl) (.inr ⟨name, names, rfl, hread⟩)

/-! ### The whole archive -/

theorem graphs_sound_iff :
    AnalysisSound configs ((graphs arc unset fuel shared configs).run' s) ↔
      ListFits arc unset fuel := by
  have hexec : (Reader.exec arc.stream
      (mtarGetFilteredFilenames unset fuel (some (ascii ".txt"))) s).1 = _ :=
    Archive.exec_mtarGetFilteredFilenames fuel s
  unfold graphs ListFits
  rw [StateT.run'_eq]
  cases hlist : arc.listFrom unset (some (ascii ".txt")) fuel [] 0 with
  | none =>
    rw [hlist] at hexec
    rw [run_bind_call hexec (by simp [Archive.listed, Except.map])]
    exact iff_of_true (sound_error _) (by simp)
  | some r =>
    obtain ⟨names, err⟩ := r
    rw [hlist, Archive.listed] at hexec
    by_cases hover : err = .overrun
    · rw [if_pos hover] at hexec
      rw [run_bind_call_overrun hexec]
      refine iff_of_true (sound_error _) ?_
      rintro _ _ ⟨⟩
      rw [hover]
      exact ⟨by simp, fun _ => .inl rfl⟩
    rw [if_neg hover] at hexec
    by_cases herr : err = .nullRecord
    · simp only [Except.map, Option.map_some, if_pos herr] at hexec
      rw [run_bind_call hexec (by simp)]
      refine (graphLoop_sound_iff fun name hname => found_of_listed hlist hname).trans ⟨?_, ?_⟩
      · rintro hfits _ _ ⟨⟩
        exact ⟨fun _ => hfits, fun hne => absurd herr hne⟩
      · exact fun hfits => (hfits names err rfl).1 herr
    · simp only [Except.map, Option.map_some, if_neg herr] at hexec
      rw [run_bind_call hexec (by simp)]
      cases names with
      | nil =>
        refine iff_of_true sound_true ?_
        rintro _ _ ⟨⟩
        exact ⟨fun heq => absurd heq herr, fun _ => .inr rfl⟩
      | cons name names =>
        refine iff_of_false not_sound_walkedFreed fun hfits => ?_
        obtain hstop | hnil := (hfits _ _ rfl).2 herr
        · exact hover hstop
        · cases hnil

/-- The analysis does no harm exactly if the shared configuration is refused or the files of the
pipelines fit. -/
theorem analysis_iff (parse : Bytes → Option Json) (write : Json → Bytes) (md5 : Bytes → Bytes)
    (cipher : Aes.Key → Equiv.Perm Block) (arc : Archive) (unset : BitVec 32 → Unset) (fuel : ℕ)
    (fresh : ℕ → Buffer) (stack : ℕ → Aes.Key) (configs : List PipelineConfig) :
    AnalysisSound configs ((analysis parse write md5 cipher arc unset fuel fresh stack
        configs).run' (Mtar.opened, 0)) ↔
      ∀ shared s, (loadShared parse write md5 cipher arc unset fuel fresh stack).run
          (Mtar.opened, 0) = .ok (some shared, s) → ListFits arc unset fuel := by
  unfold analysis
  rw [StateT.run'_eq]
  cases hshared : (loadShared parse write md5 cipher arc unset fuel fresh stack).run
      (Mtar.opened, 0) with
  | error stop =>
    rw [run_bind_error hshared]
    exact iff_of_true (sound_error stop) (by simp)
  | ok r =>
    obtain ⟨shared, s⟩ := r
    rw [run_bind_ok hshared]
    cases shared with
    | none => exact iff_of_true (sound_false_iff.mpr rfl) (by simp)
    | some shared =>
      exact graphs_sound_iff.trans ⟨fun hfits _ _ _ => hfits, fun hfits => hfits _ _ rfl⟩

end Proofs

/-- A configuration without models. -/
def noModels : Bytes := ascii "\x7b\"models_mgr\":\x7b\"models_name\":[]\x7d\x7d"

/-- A parser that knows one text, a configuration of no models. -/
def parseNoModels (text : Bytes) : Option Json :=
  if text = noModels then
    some (.object [(ascii "models_mgr", .object [(ascii "models_name", .array [])])])
  else none

/-- An archive whose only pipeline has a name of one part. -/
def onePart : Archive :=
  ⟨headerToRaw (regular (ascii "global_shared_config.json") (BitVec.ofNat 32 noModels.length)) ++
    noModels ++ List.replicate (512 - noModels.length) 0 ++
    headerToRaw (regular (ascii "a.txt") 0) ++ List.replicate 1024 0, by decide +kernel⟩

theorem not_sound_onePart :
    ¬ AnalysisSound [] ((analysis parseNoModels (fun _ => []) id (fun _ => Equiv.refl Block) onePart
      zeros 3 (fun _ _ => 0) (fun _ _ => 0) []).run' (Mtar.opened, 0)) := by
  have hout : ((analysis parseNoModels (fun _ => []) id (fun _ => Equiv.refl Block) onePart zeros 3
      (fun _ _ => 0) (fun _ _ => 0) []).run' (Mtar.opened, 0)).map Prod.fst =
        .ok (.indexed 1 1) := by
    decide +kernel
  intro hsound
  generalize (analysis parseNoModels (fun _ => []) id (fun _ => Equiv.refl Block) onePart zeros 3
    (fun _ _ => 0) (fun _ _ => 0) []).run' (Mtar.opened, 0) = out at hout hsound
  cases out with
  | error stop => cases hout
  | ok r =>
    obtain ⟨outcome, configs'⟩ := r
    cases hout
    exact not_sound_indexed hsound

end AnalysisTar
