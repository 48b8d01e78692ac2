/-
The registry of loaded models, and the `Inference` objects that hold them.

The registry keeps a weak reference for each net name.  A model that may be shared is handed
out again to whoever asks for the name; of one that may not, a second model is made and
entered under the name with a running number behind `_newkey_`.

* `CreateModelPtr`, `DestoryModelPtr`, `Inference.Init` — the functions; `step` — the life of
  the objects;
* `Sound` — the invariant: the registry `Tracks` the objects, and who shares a model asked
  for it by its key;
* `registry_sound` — what holds of every state that is reached;
* `registry_not_sound` — runs in which more is false: a name under which models of both kinds
  are asked for, and a counter that has come round.
-/
import Mathlib
import HandTracking.Library.OrderedMap
import HandTracking.Library.Transition
import HandTracking.Library.WeakRegistry

namespace Xengine

/-- What the functions of the engine return. -/
inductive Status where
  | unknown
  | success
  | failure
  | platformNoSupport
  | modelLoadFailure
  | modelInitFailure
  | sessionInitFailure
  | forwordFailure
  deriving DecidableEq, Repr

/-- `VendorType` -/
inductive VendorType where
  | unknown
  | snpe
  | qnn
  | mnn
  | rockchip
  | artosyn
  | xreal
  | tensorrt
  deriving DecidableEq, Repr

/-- The vendors a build has, by its `HAVE_HAL_` macros.  Whether a model of the Rockchip
vendor may be shared is said by a header that is not there. -/
structure Build where
  haveHalMnn : Bool
  haveHalRknn : Bool
  haveHalArtosyn : Bool
  haveHalSnpe : Bool
  rknnIsShared : Bool

namespace Build

/-- A model can be made for the vendor. -/
def hasModel (b : Build) : VendorType → Bool
  | .mnn => b.haveHalMnn
  | .rockchip => b.haveHalRknn
  | .snpe => b.haveHalSnpe
  | .artosyn => b.haveHalArtosyn
  | _ => false

/-- A session can be made for the vendor. -/
def hasSession (b : Build) : VendorType → Bool
  | .xreal => true
  | vendor => b.hasModel vendor

/-- `IsShared` of the vendor's model class. -/
def isShared (b : Build) : VendorType → Bool
  | .snpe => true
  | .rockchip => b.rknnIsShared
  | _ => false

end Build

/-- A model: which one it is, in the order they were made, and its class. -/
structure AIModel where
  id : ℕ
  vendorType : VendorType
  deriving DecidableEq, Repr

/-- The vendor of the model lets objects share it. -/
def AIModel.isShared (b : Build) (m : AIModel) : Bool := b.isShared m.vendorType

/-- An `Inference` object; `given` remembers the name `Init` was called with. -/
structure Inference where
  netname : String
  vendorType : VendorType
  modelimpl : Option AIModel
  given : Option String
  deriving DecidableEq, Repr

/-- The registry with its counter, and the objects that are alive. -/
structure Registry where
  newkeyId : BitVec 32
  hasmod : String → Option AIModel
  nextModel : ℕ
  objects : OrderedMap ℕ Inference

namespace Registry

/-- Before the first call. -/
def initial : Registry := ⟨0, fun _ => none, 0, .empty⟩

/-- The strong references to a model. -/
def useCount (s : Registry) (m : AIModel) : ℕ :=
  (s.objects.entries.filter fun e => e.2.modelimpl = some m).length

/-- No object holds the model any more. -/
def expired (s : Registry) (m : AIModel) : Bool := s.useCount m = 0

/-- The key that is made for another model under a key. -/
def newKey (key : String) (n : BitVec 32) : String := key ++ "_newkey_" ++ toString n.toNat

/-- A model of the vendor is made, and entered under the key or a new one. -/
def makeModel (b : Build) (s : Registry) (key : String) (vendorType : VendorType)
    (isNewkey : Bool) : Option AIModel × String × Registry :=
  if b.hasModel vendorType then
    let model : AIModel := ⟨s.nextModel, vendorType⟩
    let key' := if isNewkey then newKey key s.newkeyId else key
    (some model, key',
      { s with
        newkeyId := if isNewkey then s.newkeyId + 1 else s.newkeyId
        hasmod := Function.update s.hasmod key' (some model)
        nextModel := s.nextModel + 1 })
  else (none, key, s)

/-- The model, the key it is registered under, and the registry with it. -/
def createModelPtr (b : Build) (s : Registry) (key : String) (vendorType : VendorType) :
    Option AIModel × String × Registry :=
  match s.hasmod key with
  | none => makeModel b s key vendorType false
  | some m =>
    if s.expired m then
      makeModel b { s with hasmod := Function.update s.hasmod key none } key vendorType false
    else if m.isShared b then (some m, key, s)
    -- it is there and cannot be shared: another one is made under a new key
    else makeModel b s key vendorType true

/-- `DestoryModelPtr`: an entry is taken out if nobody holds its model. -/
def destoryModelPtr (s : Registry) (key : String) : Status × Registry :=
  match s.hasmod key with
  | none => (.failure, s)
  | some m =>
    if s.useCount m = 0 then
      (.success, { s with hasmod := Function.update s.hasmod key none })
    else (.success, s)

/-- `Init`; `sessionInit` is what the session answers, if there is one. -/
def init (b : Build) (s : Registry) (id : ℕ) (o : Inference) (netname : String)
    (sessionInit : Status) : Status × Registry :=
  match createModelPtr b s netname o.vendorType with
  | (none, _, s) =>
    (.modelLoadFailure,
      { s with
        objects := s.objects.assign id { o with modelimpl := none, given := some netname } })
  | (some m, key, s) =>
    (if b.hasSession o.vendorType then sessionInit else .modelInitFailure,
      { s with
        objects := s.objects.assign id
          { o with netname := key, modelimpl := some m, given := some netname } })

/-- The destructor. -/
def destroy (s : Registry) (id : ℕ) (o : Inference) : Registry :=
  let s := { s with objects := s.objects.erase id }
  if o.modelimpl.isSome then (destoryModelPtr s o.netname).2 else s

end Registry

/-- What is done with the objects. -/
inductive Action where
  | construct (id : ℕ) (vendorType : VendorType)
  | init (id : ℕ) (netname : String) (sessionInit : Status)
  | destroy (id : ℕ)

open Registry in
/-- One call; it emits the status that is returned. -/
def step (b : Build) (s : Registry) : Action → Option (Registry × List Status)
  | .construct id vendorType =>
    match s.objects.find? id with
    | none => some ({ s with objects := s.objects.assign id ⟨"", vendorType, none, none⟩ }, [])
    | some _ => none
  | .init id netname sessionInit =>
    match s.objects.find? id with
    | none => none
    | some o =>
      let r := init b s id o netname sessionInit
      some (r.2, [r.1])
  | .destroy id =>
    match s.objects.find? id with
    | none => none
    | some o => some (destroy s id o, [])

/-- The key of a model that was entered under a new key looks like this. -/
def IsNewkey (key : String) : Prop := "_newkey_".toList <:+: key.toList

instance : DecidablePred IsNewkey := fun _ => inferInstanceAs (Decidable (_ <:+: _))

theorem isNewkey_newKey (key : String) (n : BitVec 32) : IsNewkey (Registry.newKey key n) := by
  rw [IsNewkey, Registry.newKey, String.toList_append, String.toList_append]
  exact ⟨_, _, rfl⟩

/-- One `Init` for each object, with a name that does not look like a new key. -/
def Usage (s : Registry) : Action → Prop
  | .init id netname _ =>
    ¬IsNewkey netname ∧ ∀ o ∈ s.objects.find? id, o.given = none
  | _ => True

/-- A new key is free when it is made. -/
def FreeNewkey (b : Build) (s : Registry) : Action → Prop
  | .init _ netname _ =>
    ∀ m ∈ s.hasmod netname, m.isShared b = false →
      s.hasmod (Registry.newKey netname s.newkeyId) = none
  | _ => True

instance : ∀ s a, Decidable (Usage s a)
  | s, .init id netname _ =>
    inferInstanceAs (Decidable (¬IsNewkey netname ∧ ∀ o ∈ s.objects.find? id, o.given = none))
  | _, .construct _ _ => isTrue trivial
  | _, .destroy _ => isTrue trivial

instance (b : Build) : ∀ s a, Decidable (FreeNewkey b s a)
  | s, .init _ netname _ =>
    inferInstanceAs (Decidable (∀ m ∈ s.hasmod netname, m.isShared b = false →
      s.hasmod (Registry.newKey netname s.newkeyId) = none))
  | _, .construct _ _ => isTrue trivial
  | _, .destroy _ => isTrue trivial

/-- What the object `id` holds, and under which name. -/
def holds (objects : OrderedMap ℕ Inference) (id : ℕ) : Option (String × AIModel) :=
  (objects.find? id).bind fun o => o.modelimpl.map fun m => (o.netname, m)

section Holds

variable {objects : OrderedMap ℕ Inference} {id : ℕ} {o : Inference} {k : String} {m : AIModel}

theorem holds_eq_some_iff : holds objects id = some (k, m) ↔
    ∃ o, objects.find? id = some o ∧ o.modelimpl = some m ∧ o.netname = k := by
  simp [holds, Option.bind_eq_some_iff]

theorem holds_of_find? (ho : objects.find? id = some o) :
    holds objects id = o.modelimpl.map fun m => (o.netname, m) := by
  rw [holds, ho, Option.bind_some]

theorem holds_assign : holds (objects.assign id o) =
    Function.update (holds objects) id (o.modelimpl.map fun m => (o.netname, m)) := by
  funext j
  rcases eq_or_ne j id with rfl | hne
  · rw [Function.update_self, holds, OrderedMap.find?_assign, if_pos rfl, Option.bind_some]
  · rw [Function.update_of_ne hne, holds, OrderedMap.find?_assign, if_neg hne, holds]

theorem holds_erase : holds (objects.erase id) = Function.update (holds objects) id none := by
  funext j
  rcases eq_or_ne j id with rfl | hne
  · rw [Function.update_self, holds, OrderedMap.find?_erase, if_pos rfl, Option.bind_none]
  · rw [Function.update_of_ne hne, holds, OrderedMap.find?_erase, if_neg hne, holds]

theorem Registry.useCount_eq_zero_iff {s : Registry} :
    s.useCount m = 0 ↔ ∀ id k, holds s.objects id ≠ some (k, m) := by
  rw [useCount, List.length_eq_zero_iff, List.filter_eq_nil_iff]
  constructor
  · intro h id k hid
    obtain ⟨o, ho, hm, -⟩ := holds_eq_some_iff.mp hid
    exact h (id, o) (OrderedMap.find?_eq_some_iff.mp ho) (by simpa using hm)
  · intro h e he hm
    have ho := OrderedMap.find?_eq_some_iff.mpr he
    exact h e.1 e.2.netname (holds_eq_some_iff.mpr ⟨e.2, ho, by simpa using hm, rfl⟩)

end Holds

/-- The registry tracks the objects, models are told apart by their number, and the objects
that share a model asked for it by its key. -/
structure Sound (b : Build) (s : Registry) : Prop where
  tracks : Tracks s.hasmod (holds s.objects)
  made : ∀ {id k m}, holds s.objects id = some (k, m) → m.id < s.nextModel
  asked : ∀ {id o m}, s.objects.find? id = some o → o.modelimpl = some m →
    ∃ name, o.given = some name ∧ ¬IsNewkey name ∧ (o.netname = name ∨ IsNewkey o.netname)
  shares : ∀ {id id' k k' m}, id ≠ id' → holds s.objects id = some (k, m) →
    holds s.objects id' = some (k', m) → m.isShared b = true ∧ ¬IsNewkey k

theorem sound_initial (b : Build) : Sound b Registry.initial :=
  ⟨Tracks.empty, by simp [Registry.initial, holds], by simp [Registry.initial],
    by simp [Registry.initial, holds]⟩

namespace Sound

variable {b : Build} {s : Registry} {id : ℕ} {o o' : Inference} {key name : String}
  {m : AIModel} {vendorType : VendorType}

/-- Before `Init` an object holds nothing. -/
theorem holds_of_given (h : Sound b s) (ho : s.objects.find? id = some o)
    (hgiven : o.given = none) : holds s.objects id = none := by
  rw [holds_of_find? ho, Option.map_eq_none_iff]
  cases hm : o.modelimpl with
  | none => rfl
  | some m =>
    obtain ⟨name, hname, -⟩ := h.asked ho hm
    rw [hgiven] at hname
    simp at hname

theorem not_expired (h : Sound b s) (hk : s.hasmod key = some m) : s.expired m = false := by
  obtain ⟨id, hid⟩ := h.tracks.held hk
  have huse : s.useCount m ≠ 0 := fun h0 => Registry.useCount_eq_zero_iff.mp h0 id key hid
  simpa [Registry.expired] using huse

/-- `asked` survives the change of one object. -/
theorem asked_assign (h : Sound b s)
    (ho' : ∀ m, o'.modelimpl = some m → ∃ name, o'.given = some name ∧ ¬IsNewkey name ∧
      (o'.netname = name ∨ IsNewkey o'.netname)) {j : ℕ} {p : Inference} {m : AIModel}
    (hp : (s.objects.assign id o').find? j = some p) (hm : p.modelimpl = some m) :
    ∃ name, p.given = some name ∧ ¬IsNewkey name ∧ (p.netname = name ∨ IsNewkey p.netname) := by
  rw [OrderedMap.find?_assign] at hp
  split at hp
  · obtain rfl := Option.some.inj hp
    exact ho' m hm
  · exact h.asked hp hm

/-- An object that still holds nothing changes nothing. -/
theorem assign_none (h : Sound b s) (hid : holds s.objects id = none)
    (ho' : o'.modelimpl = none) :
    Sound b { s with objects := s.objects.assign id o' } := by
  have hholds : holds (s.objects.assign id o') = holds s.objects := by
    rw [holds_assign, ho', Option.map_none, ← hid, Function.update_eq_self]
  refine ⟨?_, ?_, ?_, ?_⟩
  · rw [hholds]
    exact h.tracks
  · rw [hholds]
    exact h.made
  · intro j p m hp hm
    exact h.asked_assign (by simp [ho']) hp hm
  · rw [hholds]
    exact h.shares

/-- An object takes the model that is registered under the name it asks for. -/
theorem share (h : Sound b s) (hid : holds s.objects id = none)
    (hk : s.hasmod name = some m) (hshared : m.isShared b = true) (hname : ¬IsNewkey name)
    (ho' : o'.netname = name) (hm' : o'.modelimpl = some m) (hgiven : o'.given = some name) :
    Sound b { s with objects := s.objects.assign id o' } := by
  have hholds : holds (s.objects.assign id o') =
      Function.update (holds s.objects) id (some (name, m)) := by
    rw [holds_assign, hm', Option.map_some, ho']
  obtain ⟨i, hi⟩ := h.tracks.held hk
  refine ⟨?_, ?_, ?_, ?_⟩
  · rw [hholds]
    exact h.tracks.share hid hk
  · intro j k n hj
    rw [hholds, Tracks.update_eq_some_iff] at hj
    obtain ⟨-, hj⟩ | ⟨-, hj⟩ := hj
    · simp only [Option.some.injEq, Prod.mk.injEq] at hj
      exact hj.2 ▸ h.made hi
    · exact h.made hj
  · intro j p n hp hn
    exact h.asked_assign (fun _ _ => ⟨name, hgiven, hname, .inl ho'⟩) hp hn
  · intro j j' k k' n hne hj hj'
    rw [hholds, Tracks.update_eq_some_iff] at hj hj'
    obtain ⟨-, hj⟩ | ⟨-, hj⟩ := hj
    · simp only [Option.some.injEq, Prod.mk.injEq] at hj
      obtain ⟨rfl, rfl⟩ := hj
      exact ⟨hshared, hname⟩
    · obtain ⟨-, hj'⟩ | ⟨-, hj'⟩ := hj'
      · simp only [Option.some.injEq, Prod.mk.injEq] at hj'
        obtain ⟨rfl, rfl⟩ := hj'
        exact ⟨hshared, h.tracks.one_key hj hi ▸ hname⟩
      · exact h.shares hne hj hj'

/-- An object gets a new model, entered under a free key. -/
theorem register (h : Sound b s) (hid : holds s.objects id = none) (n : BitVec 32)
    (hk : s.hasmod key = none) (hname : ¬IsNewkey name) (hkey : key = name ∨ IsNewkey key)
    (ho' : o'.netname = key) (hm' : o'.modelimpl = some ⟨s.nextModel, vendorType⟩)
    (hgiven : o'.given = some name) :
    Sound b { s with
      newkeyId := n
      hasmod := Function.update s.hasmod key (some ⟨s.nextModel, vendorType⟩)
      nextModel := s.nextModel + 1
      objects := s.objects.assign id o' } := by
  have hholds : holds (s.objects.assign id o') =
      Function.update (holds s.objects) id (some (key, ⟨s.nextModel, vendorType⟩)) := by
    rw [holds_assign, hm', Option.map_some, ho']
  have hnew : ∀ j l, holds s.objects j ≠ some (l, ⟨s.nextModel, vendorType⟩) := by
    intro j l hj
    exact lt_irrefl _ (h.made hj)
  refine ⟨?_, ?_, ?_, ?_⟩
  · rw [hholds]
    exact h.tracks.register hid hk hnew
  · intro j k m hj
    rw [hholds, Tracks.update_eq_some_iff] at hj
    obtain ⟨-, hj⟩ | ⟨-, hj⟩ := hj
    · simp only [Option.some.injEq, Prod.mk.injEq] at hj
      obtain ⟨-, rfl⟩ := hj
      exact Nat.lt_succ_self _
    · exact Nat.lt_succ_of_lt (h.made hj)
  · intro j p m hp hm
    exact h.asked_assign (fun _ _ => ⟨name, hgiven, hname, ho' ▸ hkey⟩) hp hm
  · intro j j' k k' m hne hj hj'
    rw [hholds, Tracks.update_eq_some_iff] at hj hj'
    obtain ⟨rfl, hj⟩ | ⟨-, hj⟩ := hj <;> obtain ⟨rfl, hj'⟩ | ⟨-, hj'⟩ := hj'
    · exact absurd rfl hne
    · simp only [Option.some.injEq, Prod.mk.injEq] at hj
      obtain ⟨-, rfl⟩ := hj
      exact absurd hj' (hnew _ _)
    · simp only [Option.some.injEq, Prod.mk.injEq] at hj'
      obtain ⟨-, rfl⟩ := hj'
      exact absurd hj (hnew _ _)
    · exact h.shares hne hj hj'

/-- An object goes; what the registry tracks afterwards is all there is to show. -/
theorem erase (h : Sound b s) {hasmod : String → Option AIModel}
    (htracks : Tracks hasmod (Function.update (holds s.objects) id none)) :
    Sound b { s with hasmod := hasmod, objects := s.objects.erase id } := by
  refine ⟨?_, ?_, ?_, ?_⟩
  · rw [holds_erase]
    exact htracks
  · intro j k m hj
    rw [holds_erase] at hj
    exact h.made (Tracks.holds_of_update_none hj).2
  · intro j p m hp hm
    rw [OrderedMap.find?_erase] at hp
    split at hp
    · simp at hp
    · exact h.asked hp hm
  · intro j j' k k' m hne hj hj'
    rw [holds_erase] at hj hj'
    exact h.shares hne (Tracks.holds_of_update_none hj).2 (Tracks.holds_of_update_none hj').2

end Sound

namespace Registry

variable {b : Build} {s : Registry} {id : ℕ} {o : Inference} {netname : String}

theorem makeModel_cases (b : Build) (s : Registry) (key : String) (vendorType : VendorType)
    (isNewkey : Bool) :
    makeModel b s key vendorType isNewkey = (none, key, s) ∨
      ∃ n, makeModel b s key vendorType isNewkey =
        (some ⟨s.nextModel, vendorType⟩, if isNewkey then newKey key s.newkeyId else key,
          { s with
            newkeyId := n
            hasmod := Function.update s.hasmod
              (if isNewkey then newKey key s.newkeyId else key)
              (some ⟨s.nextModel, vendorType⟩)
            nextModel := s.nextModel + 1 }) := by
  rw [makeModel]
  split
  · exact .inr ⟨_, rfl⟩
  · exact .inl rfl

/-- A model is made under a free key, the registered one is handed out, or there is none. -/
theorem createModelPtr_cases (h : Sound b s) (vendorType : VendorType)
    (hfree : ∀ m, s.hasmod netname = some m → m.isShared b = false →
      s.hasmod (newKey netname s.newkeyId) = none) :
    createModelPtr b s netname vendorType = (none, netname, s) ∨
      (∃ m, s.hasmod netname = some m ∧ m.isShared b = true ∧
        createModelPtr b s netname vendorType = (some m, netname, s)) ∨
      ∃ key n, s.hasmod key = none ∧ (key = netname ∨ IsNewkey key) ∧
        createModelPtr b s netname vendorType = (some ⟨s.nextModel, vendorType⟩, key,
          { s with
            newkeyId := n
            hasmod := Function.update s.hasmod key (some ⟨s.nextModel, vendorType⟩)
            nextModel := s.nextModel + 1 }) := by
  cases hk : s.hasmod netname with
  | none =>
    have hcreate : createModelPtr b s netname vendorType =
        makeModel b s netname vendorType false := by
      rw [createModelPtr, hk]
    rw [hcreate]
    obtain hmake | ⟨n, hmake⟩ := makeModel_cases b s netname vendorType false
    · exact .inl hmake
    · exact .inr (.inr ⟨netname, n, hk, .inl rfl, hmake⟩)
  | some m =>
    -- a model that is not shared is made once more, under a new key
    by_cases hshared : m.isShared b = true
    · refine .inr (.inl ⟨m, rfl, hshared, ?_⟩)
      simp only [createModelPtr, hk, h.not_expired hk, hshared, if_true, Bool.false_eq_true,
        if_false]
    · rw [Bool.not_eq_true] at hshared
      have hcreate : createModelPtr b s netname vendorType =
          makeModel b s netname vendorType true := by
        simp only [createModelPtr, hk, h.not_expired hk, hshared, Bool.false_eq_true, if_false]
      rw [hcreate]
      obtain hmake | ⟨n, hmake⟩ := makeModel_cases b s netname vendorType true
      · exact .inl hmake
      · exact .inr (.inr ⟨_, n, hfree m hk hshared, .inr (isNewkey_newKey ..), hmake⟩)

theorem sound_init (h : Sound b s) (ho : s.objects.find? id = some o) (hgiven : o.given = none)
    (hname : ¬IsNewkey netname) (sessionInit : Status)
    (hfree : ∀ m, s.hasmod netname = some m → m.isShared b = false →
      s.hasmod (newKey netname s.newkeyId) = none) :
    Sound b (init b s id o netname sessionInit).2 := by
  have hid := h.holds_of_given ho hgiven
  rw [init]
  obtain hcreate | ⟨m, hk, hshared, hcreate⟩ | ⟨key, n, hk, hkey, hcreate⟩ :=
    createModelPtr_cases h o.vendorType hfree
  · rw [hcreate]
    exact h.assign_none hid rfl
  · rw [hcreate]
    exact h.share hid hk hshared hname rfl rfl rfl
  · rw [hcreate]
    exact h.register hid n hk hname hkey rfl rfl rfl

theorem sound_destroy (h : Sound b s) (ho : s.objects.find? id = some o) :
    Sound b (destroy s id o) := by
  have hid := holds_of_find? ho
  rw [destroy]
  cases hm : o.modelimpl with
  | none =>
    rw [hm, Option.map_none] at hid
    exact h.erase (h.tracks.update_none hid)
  | some m =>
    rw [hm, Option.map_some] at hid
    have hk := h.tracks.registered hid
    rw [Option.isSome_some, if_pos rfl, destoryModelPtr]
    simp only [hk]
    have huse : useCount { s with objects := s.objects.erase id } m = 0 ↔
        ∀ j k, Function.update (holds s.objects) id none j ≠ some (k, m) := by
      rw [useCount_eq_zero_iff, holds_erase]
    split
    · rename_i h0
      rw [huse] at h0
      refine h.erase (h.tracks.release_last hid fun j l hne hj => h0 j l ?_)
      rw [Function.update_of_ne hne, hj]
    · rename_i h0
      rw [huse] at h0
      push Not at h0
      obtain ⟨j, k, hj⟩ := h0
      obtain ⟨hne, hj⟩ := Tracks.holds_of_update_none hj
      exact h.erase (h.tracks.release hid hne hj)

end Registry

/-- What one call preserves. -/
theorem sound_step {b : Build} {s s' : Registry} {a : Action} {es : List Status}
    (h : Sound b s) (ha : Usage s a ∧ FreeNewkey b s a) (hs : step b s a = some (s', es)) :
    Sound b s' := by
  cases a with
  | construct id vendorType =>
    simp only [step] at hs
    split at hs
    · rename_i hnone
      simp only [Option.some.injEq, Prod.mk.injEq] at hs
      obtain ⟨rfl, -⟩ := hs
      have hid : holds s.objects id = none := by
        rw [holds, hnone, Option.bind_none]
      exact h.assign_none hid rfl
    · simp at hs
  | init id netname sessionInit =>
    simp only [step] at hs
    split at hs
    · simp at hs
    · rename_i o ho
      simp only [Option.some.injEq, Prod.mk.injEq] at hs
      obtain ⟨rfl, -⟩ := hs
      obtain ⟨⟨hname, hgiven⟩, hfree⟩ := ha
      exact Registry.sound_init h ho (hgiven o ho) hname sessionInit hfree
  | destroy id =>
    simp only [step] at hs
    split at hs
    · simp at hs
    · rename_i o ho
      simp only [Option.some.injEq, Prod.mk.injEq] at hs
      obtain ⟨rfl, -⟩ := hs
      exact Registry.sound_destroy h ho

open Transition

theorem sound_run {b : Build} {as : List Action} {es : List Status} {s : Registry}
    (run : Run (step b) (fun s a => Usage s a ∧ FreeNewkey b s a) Registry.initial as es s) :
    Sound b s :=
  run.state_invariant (sound_initial b) fun _ _ _ _ h ha hs => sound_step h ha hs

/-! ### What is registered, what is shared, what is left -/

/-- Each live model is registered under one key, the name of every object that holds it. -/
def KeyedByHolders (s : Registry) : Prop :=
  ∀ id o m, s.objects.find? id = some o → o.modelimpl = some m →
    ∀ k, s.hasmod k = some m ↔ k = o.netname

/-- Objects initialised with the same name have the same model when it may be shared. -/
def SharedByName (b : Build) (s : Registry) : Prop :=
  ∀ id id' o o' name m m', id ≠ id' →
    s.objects.find? id = some o → o.given = some name → o.modelimpl = some m →
    s.objects.find? id' = some o' → o'.given = some name → o'.modelimpl = some m' →
    (m = m' ↔ m.isShared b = true)

/-- … and when neither of them was given a new key. -/
def SharedUnderName (b : Build) (s : Registry) : Prop :=
  ∀ id id' o o' name m m', id ≠ id' →
    s.objects.find? id = some o → o.given = some name → o.modelimpl = some m →
    s.objects.find? id' = some o' → o'.given = some name → o'.modelimpl = some m' →
    (m = m' ↔ m.isShared b = true ∧ o.netname = name ∧ o'.netname = name)

/-- What is registered is held. -/
def NoStaleKey (s : Registry) : Prop :=
  ∀ k m, s.hasmod k = some m → ∃ id o, s.objects.find? id = some o ∧ o.modelimpl = some m

namespace Sound

variable {b : Build} {s : Registry}

theorem keyedByHolders (h : Sound b s) : KeyedByHolders s := by
  intro id o m ho hm k
  exact h.tracks.registered_iff (holds_eq_some_iff.mpr ⟨o, ho, hm, rfl⟩)

theorem sharedUnderName (h : Sound b s) : SharedUnderName b s := by
  intro id id' o o' name m m' hne ho hgiven hm ho' hgiven' hm'
  have hid := holds_eq_some_iff.mpr ⟨o, ho, hm, rfl⟩
  have hid' := holds_eq_some_iff.mpr ⟨o', ho', hm', rfl⟩
  have hname : ∀ {id o m}, s.objects.find? id = some o → o.modelimpl = some m →
      o.given = some name → ¬IsNewkey o.netname → o.netname = name := by
    intro id o m ho hm hgiven hkey
    obtain ⟨name', hname', -, hor⟩ := h.asked ho hm
    rw [hgiven] at hname'
    obtain rfl := Option.some.inj hname'
    exact hor.resolve_right hkey
  constructor
  · rintro rfl
    obtain ⟨hshared, hkey⟩ := h.shares hne hid hid'
    obtain ⟨-, hkey'⟩ := h.shares hne.symm hid' hid
    exact ⟨hshared, hname ho hm hgiven hkey, hname ho' hm' hgiven' hkey'⟩
  · rintro ⟨-, hkey, hkey'⟩
    exact (h.tracks.eq_iff hid hid').mpr (hkey.trans hkey'.symm)

theorem noStaleKey (h : Sound b s) : NoStaleKey s := by
  intro k m hk
  obtain ⟨id, hid⟩ := h.tracks.held hk
  obtain ⟨o, ho, hm, -⟩ := holds_eq_some_iff.mp hid
  exact ⟨id, o, ho, hm⟩

end Sound

/-- In every state that is reached, as long as no new key is made that is still taken. -/
theorem registry_sound {b : Build} {as : List Action} {es : List Status} {s : Registry}
    (run : Run (step b) (fun s a => Usage s a ∧ FreeNewkey b s a) Registry.initial as es s) :
    KeyedByHolders s ∧ SharedUnderName b s ∧ NoStaleKey s :=
  have h := sound_run run
  ⟨h.keyedByHolders, h.sharedUnderName, h.noStaleKey⟩

/-! ### Runs in which more is false -/

/-- The vendors of the runs below. -/
def mnnAndSnpe : Build := ⟨true, false, false, true, false⟩

/-- One model that may not be shared, then two that may, all under one name. -/
def mixedActions : List Action :=
  [.construct 0 .mnn, .init 0 "x" .success, .construct 1 .snpe, .init 1 "x" .success,
    .construct 2 .snpe, .init 2 "x" .success]

theorem mixedActions_isSome :
    (exec (step mnnAndSnpe) (fun s a => Usage s a ∧ FreeNewkey mnnAndSnpe s a)
      Registry.initial mixedActions).isSome := by
  decide +kernel

theorem registry_sound_mixed :
    ∃ es s, Run (step mnnAndSnpe) (fun s a => Usage s a ∧ FreeNewkey mnnAndSnpe s a)
        Registry.initial mixedActions es s ∧
      KeyedByHolders s ∧ SharedUnderName mnnAndSnpe s ∧ NoStaleKey s :=
  ⟨_, _, Run.of_exec_get mixedActions_isSome,
    registry_sound (Run.of_exec_get mixedActions_isSome)⟩

/-- The two that may be shared are two models. -/
theorem mixed_not_sharedByName :
    ∃ as es s, Run (step mnnAndSnpe) Usage Registry.initial as es s ∧
      ¬SharedByName mnnAndSnpe s := by
  have run := Run.of_exec_get mixedActions_isSome
  refine ⟨_, _, _, run.mono fun _ _ h => h.1, fun h => ?_⟩
  have hshared := h 1 2 ⟨"x_newkey_0", .snpe, some ⟨1, .snpe⟩, some "x"⟩
    ⟨"x_newkey_1", .snpe, some ⟨2, .snpe⟩, some "x"⟩ "x" ⟨1, .snpe⟩ ⟨2, .snpe⟩
    (by decide) (by decide +kernel) rfl rfl (by decide +kernel) rfl rfl
  exact absurd (hshared.mpr rfl) (by decide)

/-- Two models under one name, the second under the first new key. -/
def pairObjects : OrderedMap ℕ Inference :=
  (OrderedMap.empty.assign 0 ⟨"x", .mnn, some ⟨0, .mnn⟩, some "x"⟩).assign 1
    ⟨"x_newkey_0", .mnn, some ⟨1, .mnn⟩, some "x"⟩

/-- Two models, the second under a key that was made. -/
def pairHasmod : String → Option AIModel :=
  Function.update (Function.update (fun _ => none) "x" (some ⟨0, .mnn⟩)) "x_newkey_0"
    (some ⟨1, .mnn⟩)

/-- These two, after some more that are gone. -/
def pair (n : BitVec 32) (nextModel : ℕ) : Registry := ⟨n, pairHasmod, nextModel, pairObjects⟩

theorem pairHasmod_newKey {n : BitVec 32} (hn : n ≠ 0) :
    pairHasmod (Registry.newKey "x" n) = none := by
  have hx : Registry.newKey "x" n ≠ "x" := by
    intro h
    have hx : ¬IsNewkey "x" := by decide
    exact hx (h ▸ isNewkey_newKey "x" n)
  have h0 : Registry.newKey "x" n ≠ "x_newkey_0" := by
    intro h
    have h : "x_newkey_" ++ toString n.toNat = "x_newkey_" ++ toString (0 : ℕ) := h
    rw [String.append_right_inj, Nat.toString_eq_repr, Nat.toString_eq_repr, Nat.repr_inj] at h
    exact hn (BitVec.eq_of_toNat_eq h)
  rw [pairHasmod, Function.update_of_ne h0, Function.update_of_ne hx]

/-- They and a third object. -/
def withThird (n : BitVec 32) (nextModel : ℕ) : Registry :=
  ⟨n + 1, Function.update pairHasmod (Registry.newKey "x" n) (some ⟨nextModel, .mnn⟩),
    nextModel + 1, (pairObjects.assign 2 ⟨"", .mnn, none, none⟩).assign 2
      ⟨Registry.newKey "x" n, .mnn, some ⟨nextModel, .mnn⟩, some "x"⟩⟩

theorem pair_third (n : BitVec 32) (nextModel : ℕ) :
    Run (step mnnAndSnpe) Usage (pair n nextModel) [.construct 2 .mnn, .init 2 "x" .success]
      [.success] (withThird n nextModel) := by
  have hconstruct : step mnnAndSnpe (pair n nextModel) (.construct 2 .mnn) =
      some (⟨n, pairHasmod, nextModel, pairObjects.assign 2 ⟨"", .mnn, none, none⟩⟩, []) := rfl
  have hinit : step mnnAndSnpe
      ⟨n, pairHasmod, nextModel, pairObjects.assign 2 ⟨"", .mnn, none, none⟩⟩
      (.init 2 "x" .success) = some (withThird n nextModel, [.success]) := rfl
  have hfirst : Usage (pair n nextModel) (.construct 2 .mnn) := trivial
  refine (Run.single hfirst hconstruct).trans (Run.single ⟨?_, ?_⟩ hinit)
  · decide
  · show ∀ o ∈ (pairObjects.assign 2 ⟨"", .mnn, none, none⟩).find? 2, o.given = none
    decide

/-- The third object goes, and only the counters have moved. -/
theorem pair_round {n : BitVec 32} (hn : n ≠ 0) {nextModel : ℕ} (hnext : 2 ≤ nextModel) :
    Run (step mnnAndSnpe) Usage (pair n nextModel)
      [.construct 2 .mnn, .init 2 "x" .success, .destroy 2] [.success]
      (pair (n + 1) (nextModel + 1)) := by
  have hfind : (withThird n nextModel).objects.find? 2 =
      some ⟨Registry.newKey "x" n, .mnn, some ⟨nextModel, .mnn⟩, some "x"⟩ := by
    rw [withThird, OrderedMap.find?_assign, if_pos rfl]
  have herase : (withThird n nextModel).objects.erase 2 = pairObjects := by
    refine OrderedMap.ext_find? fun k => ?_
    rw [withThird, OrderedMap.find?_erase, OrderedMap.find?_assign, OrderedMap.find?_assign]
    split_ifs with hk
    · rw [hk]
      decide
    · rfl
  -- the third model has no other holder
  have huse : Registry.useCount { withThird n nextModel with objects := pairObjects }
      ⟨nextModel, .mnn⟩ = 0 := by
    have h0 : (⟨0, .mnn⟩ : AIModel) ≠ ⟨nextModel, .mnn⟩ := by
      simp
      omega
    have h1 : (⟨1, .mnn⟩ : AIModel) ≠ ⟨nextModel, .mnn⟩ := by
      simp
      omega
    have hentries : pairObjects.entries = [(0, ⟨"x", .mnn, some ⟨0, .mnn⟩, some "x"⟩),
        (1, ⟨"x_newkey_0", .mnn, some ⟨1, .mnn⟩, some "x"⟩)] := rfl
    simp [Registry.useCount, hentries, h0, h1]
  have hkey : (withThird n nextModel).hasmod (Registry.newKey "x" n) =
      some ⟨nextModel, .mnn⟩ := Function.update_self ..
  -- so its key is given back
  have hback : Function.update (withThird n nextModel).hasmod (Registry.newKey "x" n) none =
      pairHasmod := by
    show Function.update (Function.update pairHasmod (Registry.newKey "x" n) _) _ none = _
    rw [Function.update_idem, ← pairHasmod_newKey hn, Function.update_eq_self]
  have hdestroy : step mnnAndSnpe (withThird n nextModel) (.destroy 2) =
      some (pair (n + 1) (nextModel + 1), []) := by
    simp only [step, hfind, Registry.destroy, herase, Option.isSome_some, if_true,
      Registry.destoryModelPtr, hkey]
    rw [if_pos huse, hback]
    rfl
  have hlast : Usage (withThird n nextModel) (.destroy 2) := trivial
  exact (pair_third n nextModel).trans (Run.single hlast hdestroy)

theorem pair_rounds (k : ℕ) (hk : k < 2 ^ 32) : ∃ as es,
    Run (step mnnAndSnpe) Usage (pair 1 2) as es (pair (BitVec.ofNat 32 (k + 1)) (k + 2)) := by
  induction k with
  | zero => exact ⟨_, _, .nil⟩
  | succ k ih =>
    obtain ⟨as, es, run⟩ := ih (by omega)
    have hne : BitVec.ofNat 32 (k + 1) ≠ 0 := by
      intro h
      have hval := congrArg BitVec.toNat h
      rw [BitVec.toNat_ofNat, Nat.mod_eq_of_lt hk] at hval
      simp at hval
    have hnext : BitVec.ofNat 32 (k + 1) + 1 = BitVec.ofNat 32 (k + 1 + 1) := by
      rw [BitVec.ofNat_add (k + 1) 1]
      rfl
    have round := pair_round hne (show 2 ≤ k + 2 by omega)
    rw [hnext] at round
    exact ⟨_, _, run.trans round⟩

/-- When the counter comes round, the second model loses its key. -/
theorem wrapped_not_keyed :
    ∃ as es s, Run (step mnnAndSnpe) Usage Registry.initial as es s ∧ ¬KeyedByHolders s := by
  have hstart : Run (step mnnAndSnpe) Usage Registry.initial
      [.construct 0 .mnn, .init 0 "x" .success, .construct 1 .mnn, .init 1 "x" .success]
      [.success, .success] (pair 1 2) := Run.of_exec rfl
  obtain ⟨as, es, rounds⟩ := pair_rounds (2 ^ 32 - 1) (by norm_num)
  have hzero : BitVec.ofNat 32 (2 ^ 32 - 1 + 1) = 0 := by decide
  rw [hzero] at rounds
  refine ⟨_, _, _, (hstart.trans rounds).trans (pair_third _ _), fun h => ?_⟩
  have hfind : (withThird 0 (2 ^ 32 - 1 + 2)).objects.find? 1 =
      some ⟨"x_newkey_0", .mnn, some ⟨1, .mnn⟩, some "x"⟩ := by
    rw [withThird, OrderedMap.find?_assign, if_neg (by decide), OrderedMap.find?_assign,
      if_neg (by decide)]
    rfl
  have hkey := (h 1 _ ⟨1, .mnn⟩ hfind rfl "x_newkey_0").mpr rfl
  have hnew : (withThird 0 (2 ^ 32 - 1 + 2)).hasmod "x_newkey_0" =
      some ⟨2 ^ 32 - 1 + 2, .mnn⟩ := by
    have hname : "x_newkey_0" = Registry.newKey "x" 0 := by decide
    rw [hname]
    exact Function.update_self (Registry.newKey "x" 0) _ pairHasmod
  rw [hnew] at hkey
  simp at hkey

/-- Without the conditions above neither the names nor the sharing are right. -/
theorem registry_not_sound :
    (∃ as es s, Run (step mnnAndSnpe) Usage Registry.initial as es s ∧
      ¬SharedByName mnnAndSnpe s) ∧
    ∃ as es s, Run (step mnnAndSnpe) Usage Registry.initial as es s ∧ ¬KeyedByHolders s :=
  ⟨mixed_not_sharedByName, wrapped_not_keyed⟩

end Xengine
