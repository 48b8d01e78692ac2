/-
The configuration that the pipelines of an archive share.

Every model has a part for its algorithm, one for its session and one for itself; the first part
that is missing ends the work with `false`.

* `generateSessionConfig`, `generateNetalgoConfig` — the parts besides that of the model;
* `generateGlobalSharedConfig` — the configuration of all models.
-/
import HandTracking.ModelConfig

namespace AnalysisTar

open Microtar

/-! ### Sessions -/

/-- `PrecisionMode` -/
inductive PrecisionMode where
  | unknown
  | float32
  | float16
  | int8
  | int16
  deriving DecidableEq, Repr

/-- `ConvertPrecisionMode` -/
def convertPrecisionMode (mode : Bytes) : PrecisionMode :=
  if mode = ascii "float32" then .float32
  else if mode = ascii "float16" then .float16
  else if mode = ascii "int8" then .int8
  else if mode = ascii "int16" then .int16
  else .unknown

/-- `RuntimeType` -/
inductive RuntimeType where
  | unknown
  | cpu
  | gpu
  | dsp
  | aip
  | npu
  deriving DecidableEq, Repr

/-- `ConvertRuntimeType` -/
def convertRuntimeType (mode : Bytes) : RuntimeType :=
  if mode = ascii "cpu" then .cpu
  else if mode = ascii "gpu" then .gpu
  else if mode = ascii "dsp" then .dsp
  else if mode = ascii "aip" then .aip
  else if mode = ascii "npu" then .npu
  else .unknown

/-- `CustomizeIoName`: four lists of names. -/
structure CustomizeIoName where
  inputLayername : List Bytes
  outputLayername : List Bytes
  inputTensorname : List Bytes
  outputTensorname : List Bytes
  deriving DecidableEq, Repr

/-- `SessionConfig` -/
structure SessionConfig where
  batch : BitVec 32
  precision : PrecisionMode
  threadsNum : BitVec 32
  runtimeOrder : List RuntimeType
  customizeIoname : CustomizeIoName
  fusionProcessJson : Bytes
  deriving DecidableEq, Repr

/-- The member, if there is one. -/
def Json.member (key : Bytes) (j : Json) : Except Stop (Option Json) := do
  if ← j.isMember key then do
    let value ← j.get key
    pure (some value)
  else pure none

/-- The names of an array of strings; none if there is no array. -/
def ioNames (session_config : Json) (key : String) : Except Stop (List Bytes) := do
  match ← session_config.member (ascii key) with
  | some (.array items) => items.mapM Json.asCString
  | _ => pure []

/-- The four lists of names, in their order. -/
def customizeIoname (session_config : Json) : Except Stop CustomizeIoName := do
  let inputLayername ← ioNames session_config "input_layers"
  let outputLayername ← ioNames session_config "output_layers"
  let inputTensorname ← ioNames session_config "input_tensors"
  let outputTensorname ← ioNames session_config "output_tensors"
  pure ⟨inputLayername, outputLayername, inputTensorname, outputTensorname⟩

section Files

variable (arc : Archive) (unset : BitVec 32 → Unset) (fuel : ℕ)

/-- `std::string((const char *)p, size)`; from no address only the empty string can be made. -/
def stringOf (p : Option Bytes) (size : BitVec 32) : Except Stop Bytes :=
  match p with
  | some data => .ok data
  | none => if size = 0 then .ok [] else .error .threw

/-- `none` is `false`. -/
def fusionProcess (session_config : Json) : Code (Option Bytes) := do
  match ← session_config.member (ascii "fusion_process") with
  | some (.object members) => do
    match ← (Json.object members).member (ascii "json_config_file") with
    | none => pure none
    | some json_config_file => do
      let name ← json_config_file.asCString
      match ← find arc unset fuel name with
      | none => pure none
      | some h => do
        let p ← memReadData arc unset h.size
        let text ← stringOf p h.size
        pure (some text)
  | _ => pure (some [])

/-- The fields of a session. -/
def generateSession (session_config : Json) : Code (Option SessionConfig) := do
  let batch ← session_config.get (ascii "batch")
  let batch ← batch.asUInt
  match ← session_config.member (ascii "runtime") with
  | none => pure none
  | some runtime => do
    let runtime ← runtime.asString
    let precision ← match ← session_config.member (ascii "precision") with
      | none => pure PrecisionMode.unknown
      | some precision => do
        let precision ← precision.asString
        pure (convertPrecisionMode precision)
    let threadsNum ← match ← session_config.member (ascii "thread_num") with
      | none => pure 1
      | some thread_num => thread_num.asUInt
    let names ← customizeIoname session_config
    match ← fusionProcess arc unset fuel session_config with
    | none => pure none
    | some text =>
      pure (some ⟨batch, precision, threadsNum, [convertRuntimeType runtime], names, text⟩)

/-- `GenerateSessionConfig` -/
def generateSessionConfig (root : Json) : Code (Option SessionConfig) := do
  match ← root.member (ascii "session_config") with
  | some (.object members) => generateSession arc unset fuel (.object members)
  | _ => pure none

end Files

/-! ### Algorithms -/

/-- `NetAlgoConfig` -/
structure NetAlgoConfig where
  algoName : Bytes
  netUniqueId : Bytes
  hasParam : Bool
  algoParam : Bytes
  deriving DecidableEq, Repr

/-- Without an algorithm the configuration is empty; `write` is `Json::FastWriter`. -/
def generateNetalgoConfig (write : Json → Bytes) (root : Json) : Except Stop NetAlgoConfig := do
  match ← root.member (ascii "netalgo_config") with
  | some (.object members) => do
    let name ← (Json.object members).get (ascii "name")
    let algoName ← name.asCString
    match ← (Json.object members).member (ascii "params") with
    | some (.object params) => pure ⟨algoName, [], true, write (.object params)⟩
    | _ => pure ⟨algoName, [], false, []⟩
  | _ => pure ⟨[], [], false, []⟩

/-! ### All models -/

/-- The three configurations of a model. -/
abbrev NetAlgoNode := ModelConfig × SessionConfig × NetAlgoConfig

/-- The names of the models, each with its configuration if it has one. -/
structure GlobalSharedConfig where
  netalgoConfig : List (Bytes × Option NetAlgoNode)

section Models

-- `FastWriter`, `md5str` of `md5`, OpenSSL's cipher; and what `malloc` and the array on the stack
-- hold at first, for each model
variable (write : Json → Bytes) (md5 : Bytes → Bytes) (cipher : Aes.Key → Equiv.Perm Block)
  (arc : Archive) (unset : BitVec 32 → Unset) (fuel : ℕ) (fresh : ℕ → Buffer) (stack : ℕ → Aes.Key)

/-- The parts of one model, in the order in which they are made. -/
def generateNode (i : ℕ) (node_config : Json) : Code (Option NetAlgoNode) := do
  let netalgo ← generateNetalgoConfig write node_config
  match ← generateSessionConfig arc unset fuel node_config with
  | none => pure none
  | some session => do
    match ← generateModelConfig md5 cipher arc unset fuel (fresh i) (stack i) node_config with
    | none => pure none
    | some (model, net_unique_id) =>
      pure (some (model, session, { netalgo with netUniqueId := net_unique_id }))

/-- The loop over the names, from the `i`-th on. -/
def generateNodes (models_mgr : Json) :
    ℕ → List Json → Code (Option (List (Bytes × Option NetAlgoNode)))
  | _, [] => pure (some [])
  | i, name :: names => do
    let name ← name.asString
    match ← models_mgr.member name with
    | some (.object members) => do
      match ← generateNode write md5 cipher arc unset fuel fresh stack i (.object members) with
      | none => pure none
      | some node => do
        let nodes ← generateNodes models_mgr (i + 1) names
        pure (nodes.map ((name, some node) :: ·))
    | _ => do
      let nodes ← generateNodes models_mgr (i + 1) names
      pure (nodes.map ((name, none) :: ·))

/-- `GenerateGlobalSharedConfig`: the nodes of all models. -/
def generateGlobalSharedConfig (root : Json) : Code (Option GlobalSharedConfig) := do
  match ← root.member (ascii "models_mgr") with
  | some (.object members) => do
    match ← (Json.object members).member (ascii "models_name") with
    | some (.array models_name) => do
      let nodes ← generateNodes write md5 cipher arc unset fuel fresh stack (.object members) 0
        models_name
      pure (nodes.map GlobalSharedConfig.mk)
    | _ => pure none
  | _ => pure none

end Models

end AnalysisTar
