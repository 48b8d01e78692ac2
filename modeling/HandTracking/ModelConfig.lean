/-
The models of an archive.

The configuration names a file of the archive; the memory of the model gets its data, decrypted if
there is a key.  The status of the read is not looked at: without a key the memory is then what
`malloc` gave, and with a key there is no address to decrypt from.

* `Json` — the values of the configuration, and what a value of the wrong kind throws;
* `decodeAes` — the decryption; a key is read as numbers in base 16;
* `generateModelConfig` — the configuration of a model;
* `generateModelConfig_sound_iff` — the configurations and archives for which it does what it
  should.
-/
import HandTracking.Aes
import HandTracking.MicrotarData

namespace AnalysisTar

open Microtar

/-- How the code stops without returning. -/
inductive Stop where
  | threw
  /-- Behind an array or a header, or at no address. -/
  | faulted
  | searching
  deriving DecidableEq, Repr

/-- The bytes of a text. -/
def ascii (s : String) : Bytes := s.toList.map fun c => BitVec.ofNat 8 c.toNat

/-! ### JSON values -/

/-- A number, as it reads as a text and as an `unsigned`. -/
structure Number where
  text : Bytes
  isUInt : Bool
  uint : Option (BitVec 32)
  deriving DecidableEq, Repr

/-- `Json::Value` -/
inductive Json where
  | null
  | bool (b : Bool)
  | number (n : Number)
  | string (s : Bytes)
  | array (items : List Json)
  | object (members : List (Bytes × Json))

namespace Json

/-- `isObject` -/
def isObject : Json → Bool
  | object _ => true
  | _ => false

/-- `isMember` -/
def isMember (key : Bytes) : Json → Except Stop Bool
  | null => .ok false
  | object members => .ok (members.any fun m => m.1 = key)
  | _ => .error .threw

/-- The member with the name, or null. -/
def get (key : Bytes) : Json → Except Stop Json
  | null => .ok null
  | object members => .ok ((members.find? fun m => m.1 = key).elim null Prod.snd)
  | _ => .error .threw

/-- `asString` -/
def asString : Json → Except Stop Bytes
  | null => .ok []
  | bool b => .ok (ascii (if b then "true" else "false"))
  | number n => .ok n.text
  | string s => .ok s
  | array _ => .error .threw
  | object _ => .error .threw

/-- `asCString` -/
def asCString : Json → Except Stop Bytes
  | string s => .ok (cString s)
  | _ => .error .threw

/-- `asUInt` -/
def asUInt : Json → Except Stop (BitVec 32)
  | null => .ok 0
  | bool b => .ok (if b then 1 else 0)
  | number n => n.uint.elim (.error .threw) .ok
  | _ => .error .threw

end Json

/-! ### Decryption -/

/-- The words of a string, as `>>` reads them. -/
def words (s : Bytes) : List Bytes := (s.splitOnP isSpace).filter (· ≠ [])

/-- The value of a hexadecimal digit. -/
def hexDigit (c : BitVec 8) : Option ℕ :=
  if 48 ≤ c ∧ c ≤ 57 then some (c.toNat - 48)
  else if 97 ≤ c ∧ c ≤ 102 then some (c.toNat - 87)
  else if 65 ≤ c ∧ c ≤ 70 then some (c.toNat - 55)
  else none

/-- What the digits at the front of a string say in base 16; `none` if there are none. -/
def hexValue (s : Bytes) : Option ℕ :=
  let digits := s.takeWhile fun c => (hexDigit c).isSome
  if digits = [] then none
  else some (digits.foldl (fun n c => 16 * n + (hexDigit c).getD 0) 0)

/-- `std::stoi(s, nullptr, 16)`, converted to a `char`; it throws if there is no number, or none
that is an `int`. -/
def stoiHex (s : Bytes) : Except Stop (BitVec 8) :=
  let s := (cString s).dropWhile isSpace
  let negative := s.head? = some 45
  let s := if s.head? = some 45 ∨ s.head? = some 43 then s.tail else s
  -- the prefix of base 16 counts only if a digit follows
  let plain := if s.take 2 = ascii "0x" ∨ s.take 2 = ascii "0X" then hexValue (s.drop 2) else none
  match plain <|> hexValue s with
  | none => .error .threw
  | some n =>
    let n : ℤ := if negative then -n else n
    if -2 ^ 31 ≤ n ∧ n < 2 ^ 31 then .ok (BitVec.ofInt 8 n) else .error .threw

/-- The key from its words; `keybuf` has 32 bytes. -/
def decodeAesKeyLoop : ℕ → List Bytes → Aes.Key → Except Stop Aes.Key
  | _, [], keybuf => .ok keybuf
  | i, p :: ps, keybuf => do
    let n ← stoiHex p
    if hi : i < 32 then decodeAesKeyLoop (i + 1) ps (Function.update keybuf ⟨i, hi⟩ n)
    else .error .faulted

/-- `DecodeAesKey`: the words of a text, one byte of the key each. -/
def decodeAesKey (hexcode : Bytes) (keybuf : Aes.Key) : Except Stop Aes.Key :=
  decodeAesKeyLoop 0 (words hexcode) keybuf

/-- A buffer that starts with the bytes. -/
def toBuffer (data : Bytes) : Buffer := fun k => data.getD k 0

section Code

-- OpenSSL's cipher; what `malloc` and the array on the stack hold at first
variable (cipher : Aes.Key → Equiv.Perm Block) (fresh : Buffer) (stack : Aes.Key)

/-- `DecodeAes`: the decrypted file and its size.  Without data, only a size below a block is never
read from. -/
def decodeAes (data : Option Bytes) (len : BitVec 32) (key : Bytes) :
    Except Stop (Buffer × BitVec 32) := do
  let randKey ← decodeAesKey key stack
  if 2 ^ 31 ≤ len.toNat then .error .faulted
  else if data = none ∧ 16 ≤ len.toNat then .error .faulted
  else
    match Aes.decryptBuf cipher randKey (toBuffer (data.getD [])) len.toNat fresh with
    | none => .error .faulted
    | some (decryptfilebuf, size) => .ok (decryptfilebuf, BitVec.ofNat 32 size)

end Code

/-! ### The configuration of a model -/

/-- Code that uses the reader of the archive. -/
abbrev Code (α : Type) := StateT (Mtar × ℕ) (Except Stop) α

section Files

variable (arc : Archive) (unset : BitVec 32 → Unset) (fuel : ℕ)

/-- A call of the library; a header whose texts leave it does not come to a status. -/
def call {α : Type} (m : Reader α) : Code (Except MtarErr α) := fun s =>
  match Reader.status (Reader.exec arc.stream m s).1 with
  | .ok r => .ok (r, (Reader.exec arc.stream m s).2)
  | .error _ => .error .faulted

/-- `MTAR_ESUCCESS == mtar_find(&tar, name, &h)`. -/
def find (name : Bytes) : Code (Option MtarHeader) := do
  match ← call arc (mtarFind unset fuel name) with
  | .error _ => pure none
  | .ok none => throw .searching
  | .ok (some h) => pure (some h)

/-- The data that `mtar_mem_read_data` points to; `none` is the null pointer. -/
def memReadData (size : BitVec 32) : Code (Option Bytes) := do
  let r ← call arc (mtarMemReadData unset size)
  pure (r.toOption.map Prod.fst)

/-- What `mtar_read_data` leaves in a buffer. -/
def readData (p : Buffer) (size : BitVec 32) : Code Buffer := do
  let r ← call arc (mtarReadData unset size)
  pure (r.toOption.elim p fun data => toBuffer data.1)

end Files

/-- `VendorType` -/
inductive VendorType where
  | unknown
  | snpe
  | qnn
  | mnn
  | rockchip
  | artosyn
  | xreal
  | tensorrt
  deriving DecidableEq, Repr

/-- `ConvertVendorType` -/
def convertVendorType (mode : Bytes) : VendorType :=
  if mode = ascii "snpe" then .snpe
  else if mode = ascii "qnn" then .qnn
  else if mode = ascii "mnn" then .mnn
  else if mode = ascii "rockchip" then .rockchip
  else if mode = ascii "artosyn" then .artosyn
  else .unknown

/-- `ModelConfig`, which `GenerateModelConfig` fills. -/
structure ModelConfig where
  vendorType : VendorType
  modelMem : Buffer
  modelSize : BitVec 32
  dontBatch : Bool

/-- What `root` says of the model: the configuration and the vendor. -/
def modelSource (root : Json) : Except Stop (Option (Json × VendorType)) := do
  if ← root.isMember (ascii "model_config") then do
    let model_config ← root.get (ascii "model_config")
    if model_config.isObject then do
      if ← model_config.isMember (ascii "vendor") then do
        let vendor ← model_config.get (ascii "vendor")
        let mode ← vendor.asString
        pure (some (model_config, convertVendorType mode))
      else pure none
    else pure none
  else pure none

/-- The text under `file_name`. -/
def fileName (model_config : Json) : Except Stop Bytes := do
  (← model_config.get (ascii "file_name")).asCString

/-- The key, if there is one and it is a string. -/
def aesKey (model_config : Json) : Option Bytes :=
  match model_config.get (ascii "aes_key") with
  | .ok (.string key) => some key
  | _ => none

/-- Whether `dont_batch` is 1. -/
def dontBatch (model_config : Json) : Bool :=
  match model_config.get (ascii "dont_batch") with
  | .ok (.number n) => n.isUInt && n.uint = some 1
  | _ => false

section Model

-- `md5str` of `md5`; OpenSSL's cipher; what `malloc` and the array on the stack hold at first
variable (md5 : Bytes → Bytes) (cipher : Aes.Key → Equiv.Perm Block) (arc : Archive)
  (unset : BitVec 32 → Unset) (fuel : ℕ) (fresh : Buffer) (stack : Aes.Key)

/-- The memory of the model and its size, from the file that has been found. -/
def loadModel (model_config : Json) (h : MtarHeader) : Code (Buffer × BitVec 32) := do
  match aesKey model_config with
  | some key =>
    let p ← memReadData arc unset h.size
    decodeAes cipher fresh stack p h.size key
  | none =>
    let p ← readData arc unset fresh h.size
    pure (p, h.size)

/-- The configuration and the `net_unique_id`; `none` for `false`. -/
def generateModelConfig (root : Json) : Code (Option (ModelConfig × Bytes)) := do
  match ← modelSource root with
  | none => pure none
  | some (model_config, vendorType) =>
    let name ← fileName model_config
    match ← find arc unset fuel name with
    | none => pure none
    | some h =>
      let (modelMem, modelSize) ← loadModel cipher arc unset fresh stack model_config h
      let netname := md5 ((List.range modelSize.toNat).map modelMem)
      pure (some (⟨vendorType, modelMem, modelSize, dontBatch model_config⟩, netname))

/-! ### What it should do -/

/-- The search has found the header of the file at the position. -/
structure Found (root model_config : Json) (vendorType : VendorType) (p : BitVec 32)
    (h : MtarHeader) : Prop where
  source : modelSource root = .ok (some (model_config, vendorType))
  found : ∃ name, fileName model_config = .ok name ∧
    arc.findFrom unset (cString name) fuel 0 = .ok (some (p, h))

/-- On the way to the file the search comes to a header whose texts leave it. -/
def Overruns (root : Json) : Prop :=
  ∃ model_config vendorType name, modelSource root = .ok (some (model_config, vendorType)) ∧
    fileName model_config = .ok name ∧
      arc.findFrom unset (cString name) fuel 0 = .error .overrun

/-- The size in the header at a position. -/
def sizeAt (p : BitVec 32) : Option (BitVec 32) := scanOctal ((arc.slice p.toNat 512).drop 124)

/-- The bytes behind the header at a position. -/
abbrev dataAt (p size : BitVec 32) : Bytes := arc.slice (p.toNat + 512) size.toNat

/-- The memory is that of the bytes behind the header, or of their decryption. -/
def Holds (model_config : Json) (p size : BitVec 32) (modelMem : Buffer) (modelSize : BitVec 32) :
    Prop :=
  match aesKey model_config with
  | none => modelSize = size ∧ (List.range size.toNat).map modelMem = dataAt arc p size
  | some key =>
    decodeAes cipher fresh stack (some (dataAt arc p size)) size key = .ok (modelMem, modelSize)

/-- The code comes to an end; if it returns `true`, the memory holds the bytes that follow the
header, and if the archive ends before them, it returns `false`. -/
structure Sound (root : Json) (s : Mtar × ℕ) : Prop where
  not_faulted :
    (generateModelConfig md5 cipher arc unset fuel fresh stack root).run' s ≠ .error .faulted
  holds : ∀ config,
    (generateModelConfig md5 cipher arc unset fuel fresh stack root).run' s = .ok (some config) →
      ∃ model_config vendorType p h size, Found arc unset fuel root model_config vendorType p h ∧
        sizeAt arc p = some size ∧ p.toNat + 512 + size.toNat ≤ arc.len ∧
        Holds cipher arc fresh stack model_config p size config.1.modelMem config.1.modelSize
  truncated : ∀ model_config vendorType p h size,
    Found arc unset fuel root model_config vendorType p h → sizeAt arc p = some size →
      arc.len < p.toNat + 512 + size.toNat →
      (generateModelConfig md5 cipher arc unset fuel fresh stack root).run' s = .ok none

/-- The data end before the last byte of the archive; with a key that throws, before its end; and
with another key, they can be decrypted. -/
def DataFits (model_config : Json) (p : BitVec 32) : Prop :=
  match aesKey model_config with
  | none => ∃ size, sizeAt arc p = some size ∧ p.toNat + 512 + size.toNat < arc.len
  | some key =>
    ∀ stack, match decodeAesKey key stack with
      | .error .faulted => False
      | .error _ => ∀ size, sizeAt arc p = some size → p.toNat + 512 + size.toNat ≤ arc.len
      | .ok _ =>
        ∃ size, sizeAt arc p = some size ∧ p.toNat + 512 + size.toNat < arc.len ∧
          ∀ fresh, decodeAes cipher fresh stack (some (dataAt arc p size)) size key ≠
            .error .faulted

end Model

/-! ### What it does -/

section Proofs

variable {md5 : Bytes → Bytes} {cipher : Aes.Key → Equiv.Perm Block} {arc : Archive}
  {unset : BitVec 32 → Unset} {fuel : ℕ} {fresh : Buffer} {stack : Aes.Key}
  {root model_config model_config' : Json} {vendorType vendorType' : VendorType}
  {p p' size : BitVec 32} {h h' : MtarHeader} {name : Bytes} {s : Mtar × ℕ}

theorem Found.unique (hf : Found arc unset fuel root model_config vendorType p h)
    (hf' : Found arc unset fuel root model_config' vendorType' p' h') :
    model_config = model_config' ∧ vendorType = vendorType' ∧ p = p' ∧ h = h' := by
  obtain ⟨hsource, name, hname, hfound⟩ := hf
  obtain ⟨hsource', name', hname', hfound'⟩ := hf'
  rw [hsource] at hsource'
  cases hsource'
  rw [hname] at hname'
  cases hname'
  rw [hfound] at hfound'
  cases hfound'
  exact ⟨rfl, rfl, rfl, rfl⟩

theorem size_eq_of_sizeAt (hh : arc.headerAt unset p = .ok h) (hsize : sizeAt arc p = some size) :
    h.size = size := by
  have hraw := (Archive.headerAt_ok hh).2
  rw [(rawToHeader_ok hraw).2, show scanOctal _ = some size from hsize, Option.getD_some]

theorem run_bind_ok {α β : Type} {m : Code α} {f : α → Code β} {a : α} {s s' : Mtar × ℕ}
    (hm : m.run s = .ok (a, s')) : (m >>= f).run s = (f a).run s' := by
  rw [StateT.run_bind, hm]
  rfl

theorem run_bind_error {α β : Type} {m : Code α} {f : α → Code β} {stop : Stop}
    (hm : m.run s = .error stop) : (m >>= f).run s = .error stop := by
  rw [StateT.run_bind, hm]
  rfl

/-- After a call of the library the code goes on with its result. -/
theorem run_bind_call {α β : Type} {m : Reader α} {f : Except MtarErr α → Code β}
    {r : Except MtarErr α} (hm : (Reader.exec arc.stream m s).1 = r) (hr : r ≠ .error .overrun) :
    (call arc m >>= f).run s = (f r).run (Reader.exec arc.stream m s).2 := by
  refine run_bind_ok ?_
  simp only [call, StateT.run, hm, Reader.status_eq_ok hr]

theorem run_bind_call_overrun {α β : Type} {m : Reader α} {f : Except MtarErr α → Code β}
    (hm : (Reader.exec arc.stream m s).1 = .error .overrun) :
    (call arc m >>= f).run s = .error .faulted := by
  refine run_bind_error ?_
  simp only [call, StateT.run, hm]
  rfl

theorem run_find_ok (hfound : arc.findFrom unset (cString name) fuel 0 = .ok (some (p, h))) :
    (find arc unset fuel name).run s = .ok (some h, ⟨p, 0, p⟩, p.toNat) := by
  unfold find
  rw [run_bind_call (congrArg Prod.fst (Archive.exec_mtarFind_ok hfound)) (by simp),
    Archive.exec_mtarFind_ok hfound]
  rfl

theorem run_find_overrun (hfound : arc.findFrom unset (cString name) fuel 0 = .error .overrun) :
    (find arc unset fuel name).run s = .error .faulted := by
  have hexec : (Reader.exec arc.stream (mtarFind unset fuel name) s).1 = _ :=
    Archive.exec_mtarFind s
  rw [hfound] at hexec
  exact run_bind_call_overrun hexec

/-- A search that does not find the file gives `false`, or goes on. -/
theorem run_find_of_not_found
    (hfound : ∀ p h, arc.findFrom unset (cString name) fuel 0 ≠ .ok (some (p, h)))
    (hoverrun : arc.findFrom unset (cString name) fuel 0 ≠ .error .overrun) :
    (∃ s', (find arc unset fuel name).run s = .ok (none, s')) ∨
      (find arc unset fuel name).run s = .error .searching := by
  have hexec : (Reader.exec arc.stream (mtarFind unset fuel name) s).1 = _ :=
    Archive.exec_mtarFind s
  unfold find
  cases hres : arc.findFrom unset (cString name) fuel 0 with
  | error err =>
    have herr : err ≠ .overrun := by
      rintro rfl
      exact hoverrun hres
    have hstatus : (if err = .nullRecord then .notFound else err) ≠ MtarErr.overrun := by
      split_ifs
      · simp
      · exact herr
    rw [hres] at hexec
    rw [run_bind_call hexec (by simpa [Except.map, Except.mapError] using hstatus)]
    exact .inl ⟨_, rfl⟩
  | ok found =>
    cases found with
    | some r => exact absurd hres (hfound r.1 r.2)
    | none =>
      rw [hres] at hexec
      rw [run_bind_call hexec (by simp [Except.map, Except.mapError])]
      exact .inr rfl

/-- What is read of the data of a file where its header has been found. -/
def dataRead (arc : Archive) (p : BitVec 32) (h : MtarHeader) : Option Bytes :=
  if p.toNat + 512 + h.size.toNat < arc.len then some (dataAt arc p h.size) else none

theorem run_memReadData (hh : arc.headerAt unset p = .ok h) :
    ∃ s', (memReadData arc unset h.size).run (⟨p, 0, p⟩, p.toNat) =
      .ok (dataRead arc p h, s') := by
  have hread := Archive.exec_mtarReadData hh
  unfold memReadData dataRead
  rw [Archive.mtarMemReadData_eq]
  by_cases hend : p.toNat + 512 + h.size.toNat < arc.len
  · rw [if_pos hend] at hread ⊢
    rw [run_bind_call hread (by simp)]
    exact ⟨_, rfl⟩
  · rw [if_neg hend] at hread ⊢
    rw [run_bind_call hread (by simp)]
    exact ⟨_, rfl⟩

theorem run_readData (hh : arc.headerAt unset p = .ok h) (b : Buffer) :
    ∃ s', (readData arc unset b h.size).run (⟨p, 0, p⟩, p.toNat) =
      .ok ((dataRead arc p h).elim b toBuffer, s') := by
  have hread := Archive.exec_mtarReadData hh
  unfold readData dataRead
  by_cases hend : p.toNat + 512 + h.size.toNat < arc.len
  · rw [if_pos hend] at hread ⊢
    rw [run_bind_call hread (by simp)]
    exact ⟨_, rfl⟩
  · rw [if_neg hend] at hread ⊢
    rw [run_bind_call hread (by simp)]
    exact ⟨_, rfl⟩

/-- What is loaded of the file that has been found. -/
def loaded (cipher : Aes.Key → Equiv.Perm Block) (arc : Archive) (fresh : Buffer) (stack : Aes.Key)
    (model_config : Json) (p : BitVec 32) (h : MtarHeader) : Except Stop (Buffer × BitVec 32) :=
  match aesKey model_config with
  | some key => decodeAes cipher fresh stack (dataRead arc p h) h.size key
  | none => .ok ((dataRead arc p h).elim fresh toBuffer, h.size)

theorem run_loadModel (hh : arc.headerAt unset p = .ok h) :
    ((loadModel cipher arc unset fresh stack model_config h).run' (⟨p, 0, p⟩, p.toNat)) =
      loaded cipher arc fresh stack model_config p h := by
  unfold loadModel loaded
  cases aesKey model_config with
  | none =>
    obtain ⟨s', hread⟩ := run_readData hh fresh
    rw [StateT.run'_eq, run_bind_ok hread]
    rfl
  | some key =>
    obtain ⟨s', hread⟩ := run_memReadData hh
    rw [StateT.run'_eq, run_bind_ok hread]
    cases hdec : decodeAes cipher fresh stack (dataRead arc p h) h.size key with
    | error stop => simp [hdec]
    | ok r => simp [hdec]

theorem run_lift {α : Type} {m : Except Stop α} {a : α} (hm : m = .ok a) :
    (liftM m : Code α).run s = .ok (a, s) := by
  rw [hm]
  rfl

/-- The result, once the file has been found. -/
theorem run_generateModelConfig (hf : Found arc unset fuel root model_config vendorType p h) :
    (generateModelConfig md5 cipher arc unset fuel fresh stack root).run' s =
      (loaded cipher arc fresh stack model_config p h).map fun r =>
        some (⟨vendorType, r.1, r.2, dontBatch model_config⟩,
          md5 ((List.range r.2.toNat).map r.1)) := by
  obtain ⟨hsource, name, hname, hfound⟩ := hf
  have hh := (Archive.headerAt_of_findFrom hfound).1
  have hload : (loadModel cipher arc unset fresh stack model_config h).run'
      (⟨p, 0, p⟩, p.toNat) = _ := run_loadModel hh
  unfold generateModelConfig
  rw [StateT.run'_eq, run_bind_ok (run_lift hsource)]
  dsimp only
  rw [run_bind_ok (run_lift hname), run_bind_ok (run_find_ok hfound)]
  dsimp only
  rw [← hload, StateT.run'_eq]
  cases hrun : (loadModel cipher arc unset fresh stack model_config h).run (⟨p, 0, p⟩, p.toNat) with
  | error stop =>
    rw [run_bind_error hrun]
    rfl
  | ok r =>
    rw [run_bind_ok hrun]
    rfl

/-! ### Files that are not found -/

/-- Either a value, or an exception. -/
def Throws {α : Type} (x : Except Stop α) : Prop := ∀ stop, x = .error stop → stop = .threw

theorem Throws.bind {α β : Type} {x : Except Stop α} {f : α → Except Stop β} (hx : Throws x)
    (hf : ∀ a, Throws (f a)) : Throws (x >>= f) := by
  intro stop hstop
  cases x with
  | error stop' =>
    cases hstop
    exact hx stop rfl
  | ok a => exact hf a stop hstop

theorem throws_ok {α : Type} (a : α) : Throws (.ok a) := fun _ h => by cases h

theorem throws_isMember (key : Bytes) (j : Json) : Throws (j.isMember key) := by
  intro stop h
  cases j <;> cases h
  all_goals rfl

theorem throws_get (key : Bytes) (j : Json) : Throws (j.get key) := by
  intro stop h
  cases j <;> cases h
  all_goals rfl

theorem throws_asString (j : Json) : Throws j.asString := by
  intro stop h
  cases j <;> cases h
  all_goals rfl

theorem throws_asCString (j : Json) : Throws j.asCString := by
  intro stop h
  cases j <;> cases h
  all_goals rfl

theorem throws_modelSource (root : Json) : Throws (modelSource root) := by
  refine (throws_isMember _ _).bind fun b => ?_
  split
  · refine (throws_get _ _).bind fun model_config => ?_
    split
    · refine (throws_isMember _ _).bind fun b => ?_
      split
      · exact (throws_get _ _).bind fun vendor =>
          (throws_asString _).bind fun mode => throws_ok _
      · exact throws_ok _
    · exact throws_ok _
  · exact throws_ok _

theorem throws_fileName (model_config : Json) : Throws (fileName model_config) :=
  (throws_get _ _).bind fun _ => throws_asCString _

theorem run_lift_error {α : Type} {m : Except Stop α} {stop : Stop} (hm : m = .error stop) :
    (liftM m : Code α).run s = .error stop := by
  rw [hm]
  rfl

/-- A header that is too long ends the search for a file. -/
theorem run_generateModelConfig_of_overruns (ho : Overruns arc unset fuel root) :
    (generateModelConfig md5 cipher arc unset fuel fresh stack root).run' s =
      .error .faulted := by
  obtain ⟨model_config, vendorType, name, hsource, hname, hfound⟩ := ho
  unfold generateModelConfig
  rw [StateT.run'_eq, run_bind_ok (run_lift hsource)]
  dsimp only
  rw [run_bind_ok (run_lift hname), run_bind_error (run_find_overrun hfound)]
  rfl

/-- Without a file there is no model, and nothing is read. -/
theorem run_generateModelConfig_of_not_found
    (hf : ∀ model_config vendorType p h,
      ¬ Found arc unset fuel root model_config vendorType p h)
    (ho : ¬ Overruns arc unset fuel root) :
    let out := (generateModelConfig md5 cipher arc unset fuel fresh stack root).run' s
    out = .ok none ∨ out = .error .threw ∨ out = .error .searching := by
  unfold generateModelConfig
  rw [StateT.run'_eq]
  cases hsource : modelSource root with
  | error stop =>
    rw [run_bind_error (run_lift_error rfl), throws_modelSource root stop hsource]
    exact .inr (.inl rfl)
  | ok source =>
    rw [run_bind_ok (run_lift rfl)]
    cases source with
    | none => exact .inl rfl
    | some r =>
      dsimp only
      cases hname : fileName r.1 with
      | error stop =>
        rw [run_bind_error (run_lift_error rfl), throws_fileName _ stop hname]
        exact .inr (.inl rfl)
      | ok name =>
        rw [run_bind_ok (run_lift rfl)]
        have hnot : ∀ p h, arc.findFrom unset (cString name) fuel 0 ≠ .ok (some (p, h)) :=
          fun p h hfound => hf r.1 r.2 p h ⟨hsource, name, hname, hfound⟩
        have hfine : arc.findFrom unset (cString name) fuel 0 ≠ .error .overrun :=
          fun hover => ho ⟨r.1, r.2, name, hsource, hname, hover⟩
        obtain ⟨s', hfind⟩ | hfind := run_find_of_not_found (s := s) hnot hfine
        · rw [run_bind_ok hfind]
          exact .inl rfl
        · rw [run_bind_error hfind]
          exact .inr (.inr rfl)

/-! ### Reading the data -/

theorem slice_length {k n : ℕ} (hle : k + n ≤ arc.len) : (arc.slice k n).length = n := by
  have hle' : k + n ≤ arc.bytes.length := hle
  unfold Archive.slice
  rw [List.length_take, List.length_drop]
  exact Nat.min_eq_left (by omega)

theorem map_toBuffer {data : Bytes} {n : ℕ} (hn : data.length = n) :
    (List.range n).map (toBuffer data) = data := by
  subst hn
  refine List.ext_getElem (by simp) fun k hk hk' => ?_
  simp [toBuffer, hk']

/-- With a key that can be read, the decryption ends or reads where it must not. -/
theorem decodeAes_of_key {key : Bytes} {randKey : Aes.Key}
    (hkey : decodeAesKey key stack = .ok randKey) (data : Option Bytes) (len : BitVec 32) :
    decodeAes cipher fresh stack data len key = .error .faulted ∨
      ∃ r, decodeAes cipher fresh stack data len key = .ok r := by
  unfold decodeAes
  rw [hkey]
  change (ite _ _ _ = _) ∨ ∃ r, ite _ _ _ = _
  split
  · exact .inl rfl
  · split
    · exact .inl rfl
    · split
      · exact .inl rfl
      · exact .inr ⟨_, rfl⟩

/-- Without data, it reads at no address or in front of the new buffer. -/
theorem decodeAes_none {key : Bytes} {randKey : Aes.Key}
    (hkey : decodeAesKey key stack = .ok randKey) (len : BitVec 32) :
    decodeAes cipher (fun _ => 0) stack none len key = .error .faulted := by
  unfold decodeAes
  rw [hkey]
  change ite _ _ _ = _
  by_cases hint : 2 ^ 31 ≤ len.toNat
  · rw [if_pos hint]
  · rw [if_neg hint]
    by_cases hblock : 16 ≤ len.toNat
    · rw [if_pos ⟨rfl, hblock⟩]
    · rw [if_neg fun h => hblock h.2]
      have htrailing : Buffer.trailing (fun _ => 0) len.toNat 32 = none :=
        Buffer.trailing_eq_none_iff.mpr ⟨by omega, fun _ _ => rfl⟩
      have hblocks : len.toNat / 16 = 0 := by omega
      simp only [Aes.decryptBuf, hblocks, Buffer.mapBlocks, htrailing]

/-- What a file that has been found gives. -/
theorem sound_iff_of_found (hf : Found arc unset fuel root model_config vendorType p h) :
    Sound md5 cipher arc unset fuel fresh stack root s ↔
      loaded cipher arc fresh stack model_config p h ≠ .error .faulted ∧
        (∀ r, loaded cipher arc fresh stack model_config p h = .ok r →
          ∃ size, sizeAt arc p = some size ∧ p.toNat + 512 + size.toNat ≤ arc.len ∧
            Holds cipher arc fresh stack model_config p size r.1 r.2) ∧
        ∀ size, sizeAt arc p = some size → p.toNat + 512 + size.toNat ≤ arc.len := by
  have hrun : (generateModelConfig md5 cipher arc unset fuel fresh stack root).run' s = _ :=
    run_generateModelConfig hf
  constructor
  · rintro ⟨hfault, hholds, htrunc⟩
    refine ⟨fun hload => ?_, fun r hload => ?_, fun size hsize => ?_⟩
    · rw [hrun, hload] at hfault
      exact hfault rfl
    · rw [hload] at hrun
      obtain ⟨mc, v, q, h', size, hf', hsize, hle, hdata⟩ := hholds _ hrun
      obtain ⟨rfl, rfl, rfl, rfl⟩ := hf.unique hf'
      exact ⟨size, hsize, hle, hdata⟩
    · -- a truncated file must not give a model
      by_contra hlt
      have hnone := htrunc _ _ _ _ size hf hsize (by omega)
      rw [hrun] at hnone
      cases hload : loaded cipher arc fresh stack model_config p h with
      | error stop => rw [hload] at hnone; cases hnone
      | ok r => rw [hload] at hnone; cases hnone
  · rintro ⟨hfault, hholds, hle⟩
    refine ⟨fun hout => ?_, fun config hout => ?_, fun mc v q h' size hf' hsize hlt => ?_⟩
    · rw [hrun] at hout
      cases hload : loaded cipher arc fresh stack model_config p h with
      | error stop => rw [hload] at hout; cases hout; exact hfault hload
      | ok r => rw [hload] at hout; cases hout
    · rw [hrun] at hout
      cases hload : loaded cipher arc fresh stack model_config p h with
      | error stop => rw [hload] at hout; cases hout
      | ok r =>
        rw [hload] at hout
        cases hout
        obtain ⟨size, hsize, hsizeLe, hdata⟩ := hholds r hload
        exact ⟨_, _, _, _, size, hf, hsize, hsizeLe, hdata⟩
    · obtain ⟨rfl, rfl, rfl, rfl⟩ := hf.unique hf'
      have := hle size hsize
      omega

theorem dataRead_of_lt (hlt : p.toNat + 512 + h.size.toNat < arc.len) :
    dataRead arc p h = some (dataAt arc p h.size) := if_pos hlt

theorem dataRead_of_le (hle : arc.len ≤ p.toNat + 512 + h.size.toNat) :
    dataRead arc p h = none := if_neg (Nat.not_lt.mpr hle)

/-- Without a key, what `malloc` gave shows unless the data are read. -/
theorem sound_iff_of_plain (hf : Found arc unset fuel root model_config vendorType p h)
    (hkey : aesKey model_config = none) :
    (∀ fresh stack s, Sound md5 cipher arc unset fuel fresh stack root s) ↔
      ∃ size, sizeAt arc p = some size ∧ p.toNat + 512 + size.toNat < arc.len := by
  obtain ⟨-, name, -, hfound⟩ := id hf
  have hh := (Archive.headerAt_of_findFrom hfound).1
  have hroom := (Archive.headerAt_ok hh).1
  have hload : ∀ fresh stack, loaded cipher arc fresh stack model_config p h =
      .ok ((dataRead arc p h).elim fresh toBuffer, h.size) := by
    intro fresh stack
    simp only [loaded, hkey]
  simp only [sound_iff_of_found hf, hload, Holds, hkey]
  constructor
  · intro hsound
    -- a byte that is not the first one of the data
    set data := dataAt arc p h.size with hdata
    obtain ⟨-, hholds, -⟩ := hsound (fun _ => data.getD 0 0 + 1) (fun _ => 0) (⟨0, 0, 0⟩, 0)
    obtain ⟨size, hsize, hle, -, hmem⟩ := hholds _ rfl
    obtain rfl := size_eq_of_sizeAt hh hsize
    refine ⟨h.size, hsize, ?_⟩
    by_contra hlt
    rw [dataRead_of_le (by omega)] at hmem
    obtain ⟨n, hn⟩ : ∃ n, h.size.toNat = n + 1 := ⟨h.size.toNat - 1, by omega⟩
    have hfirst := congrArg (fun bytes => bytes.getD 0 0) hmem
    rw [hn, List.range_succ_eq_map] at hfirst
    have hne : ∀ x : BitVec 8, x + 1 ≠ x := by decide
    exact hne _ hfirst
  · rintro ⟨size, hsize, hlt⟩ fresh stack s
    obtain rfl := size_eq_of_sizeAt hh hsize
    refine ⟨by simp, fun r hr => ?_, fun size' hsize' => ?_⟩
    · cases hr
      refine ⟨h.size, hsize, by omega, rfl, ?_⟩
      rw [dataRead_of_lt hlt]
      exact map_toBuffer (slice_length (by omega))
    · obtain rfl := size_eq_of_sizeAt hh hsize'
      omega

/-- With a key, the data are decrypted as far as the key can be read and the data can be, and
without data nothing can be decrypted. -/
theorem sound_iff_of_key (hf : Found arc unset fuel root model_config vendorType p h) {key : Bytes}
    (hkey : aesKey model_config = some key) :
    (∀ fresh stack s, Sound md5 cipher arc unset fuel fresh stack root s) ↔
      DataFits cipher arc model_config p := by
  obtain ⟨-, name, -, hfound⟩ := id hf
  have hh := (Archive.headerAt_of_findFrom hfound).1
  have hload : ∀ fresh stack, loaded cipher arc fresh stack model_config p h =
      decodeAes cipher fresh stack (dataRead arc p h) h.size key := by
    intro fresh stack
    simp only [loaded, hkey]
  simp only [sound_iff_of_found hf, hload, Holds, DataFits, hkey]
  rw [forall_comm]
  refine forall_congr' fun stack => ?_
  cases hdecode : decodeAesKey key stack with
  | error stop =>
    -- the key is not read, whatever the data are
    have hstop : ∀ fresh data len, decodeAes cipher fresh stack data len key = .error stop := by
      intro fresh data len
      unfold decodeAes
      rw [hdecode]
      rfl
    simp only [hstop]
    constructor
    · intro hsound
      obtain ⟨hfault, -, hle⟩ := hsound (fun _ => 0) (⟨0, 0, 0⟩, 0)
      cases stop with
      | faulted => exact hfault rfl
      | threw => exact hle
      | searching => exact hle
    · intro hfits fresh s
      cases stop with
      | faulted => exact hfits.elim
      | threw => exact ⟨by simp, fun r hr => (nomatch hr), hfits⟩
      | searching => exact ⟨by simp, fun r hr => (nomatch hr), hfits⟩
  | ok randKey =>
    dsimp only
    constructor
    · intro hsound
      -- without data the first chunk has nothing to decrypt
      have hlt : p.toNat + 512 + h.size.toNat < arc.len := by
        by_contra hle
        obtain ⟨hfault, -⟩ := hsound (fun _ => 0) (⟨0, 0, 0⟩, 0)
        rw [dataRead_of_le (by omega)] at hfault
        exact hfault (decodeAes_none hdecode h.size)
      rw [dataRead_of_lt hlt] at hsound
      have hfine : ∀ fresh, decodeAes cipher fresh stack (some (dataAt arc p h.size)) h.size key ≠
          .error .faulted := fun fresh => (hsound fresh (⟨0, 0, 0⟩, 0)).1
      have hends : decodeAes cipher (fun _ => 0) stack (some (dataAt arc p h.size)) h.size key = _ ∨
          _ := decodeAes_of_key hdecode _ _
      obtain ⟨r, hr⟩ := hends.resolve_left (hfine _)
      obtain ⟨size, hsize, -⟩ := (hsound _ (⟨0, 0, 0⟩, 0)).2.1 r hr
      obtain rfl := size_eq_of_sizeAt hh hsize
      exact ⟨h.size, hsize, hlt, hfine⟩
    · rintro ⟨size, hsize, hlt, hfine⟩ fresh s
      obtain rfl := size_eq_of_sizeAt hh hsize
      rw [dataRead_of_lt hlt]
      refine ⟨hfine fresh, fun r hr => ⟨h.size, hsize, by omega, hr⟩, fun size' hsize' => ?_⟩
      obtain rfl := size_eq_of_sizeAt hh hsize'
      omega

theorem sound_of_not_found
    (hf : ∀ model_config vendorType p h,
      ¬ Found arc unset fuel root model_config vendorType p h)
    (ho : ¬ Overruns arc unset fuel root) :
    Sound md5 cipher arc unset fuel fresh stack root s := by
  have hrun : (generateModelConfig md5 cipher arc unset fuel fresh stack root).run' s = _ ∨ _ :=
    run_generateModelConfig_of_not_found hf ho
  refine ⟨fun hout => ?_, fun config hout => ?_, fun mc v p h _ hfound =>
    absurd hfound (hf mc v p h)⟩
  · rw [hout] at hrun
    simp at hrun
  · rw [hout] at hrun
    simp at hrun

/-- The memory of a model is what it should be, whatever else is in memory, exactly if the search
stays in the headers and the file that is found fits. -/
theorem generateModelConfig_sound_iff (md5 : Bytes → Bytes)
    (cipher : Aes.Key → Equiv.Perm Block) (arc : Archive) (unset : BitVec 32 → Unset) (fuel : ℕ)
    (root : Json) :
    (∀ fresh stack s, Sound md5 cipher arc unset fuel fresh stack root s) ↔
      ¬ Overruns arc unset fuel root ∧
        ∀ model_config vendorType p h, Found arc unset fuel root model_config vendorType p h →
          DataFits cipher arc model_config p := by
  by_cases ho : Overruns arc unset fuel root
  · refine iff_of_false (fun hsound => ?_) fun h => h.1 ho
    exact (hsound (fun _ => 0) (fun _ => 0) (⟨0, 0, 0⟩, 0)).not_faulted
      (run_generateModelConfig_of_overruns ho)
  rw [and_iff_right ho]
  by_cases hany : ∃ model_config vendorType p h,
      Found arc unset fuel root model_config vendorType p h
  · obtain ⟨model_config, vendorType, p, h, hf⟩ := hany
    have hiff : (∀ fresh stack s, Sound md5 cipher arc unset fuel fresh stack root s) ↔
        DataFits cipher arc model_config p := by
      cases hkey : aesKey model_config with
      | none => rw [sound_iff_of_plain hf hkey, DataFits, hkey]
      | some key => exact sound_iff_of_key hf hkey
    rw [hiff]
    refine ⟨fun hfits mc v q h' hf' => ?_, fun hfits => hfits _ _ _ _ hf⟩
    obtain ⟨rfl, rfl, rfl, rfl⟩ := hf.unique hf'
    exact hfits
  · push Not at hany
    exact iff_of_true (fun fresh stack s => sound_of_not_found hany ho)
      fun mc v p h hf => absurd hf (hany mc v p h)

end Proofs

/-- The archive ends one byte after the header, which says that the model has 1024. -/
def truncated : Archive := ⟨headerToRaw (regular (ascii "m") 1024) ++ [0], by decide +kernel⟩

/-- The configuration of one model without a `model_name`. -/
def truncatedRoot : Json :=
  .object [(ascii "model_config",
    .object [(ascii "vendor", .string (ascii "snpe")), (ascii "file_name", .string (ascii "m"))])]

theorem not_sound_truncated :
    let generate := generateModelConfig id (fun _ => Equiv.refl Block) truncated zeros 1
      (fun _ => 0) (fun _ => 0) truncatedRoot
    (generate.run' (Mtar.opened, 0)).map (Option.map fun config => config.1.modelSize) =
        .ok (some 1024) ∧
      ¬ Sound id (fun _ => Equiv.refl Block) truncated zeros 1 (fun _ => 0) (fun _ => 0)
        truncatedRoot (Mtar.opened, 0) := by
  refine ⟨by decide +kernel, fun hsound => ?_⟩
  have hf : Found truncated zeros 1 truncatedRoot _ .snpe 0 (regular (ascii "m") 1024) :=
    ⟨rfl, ascii "m", rfl, by decide +kernel⟩
  have hle := ((sound_iff_of_found hf).mp hsound).2.2 1024 (by decide +kernel)
  exact absurd hle (by decide +kernel)

end AnalysisTar
