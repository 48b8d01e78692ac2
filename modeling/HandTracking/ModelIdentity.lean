/-
The name of a model is the digest of its bytes.

`AnalysisTar` names the network of a model by `md5str` of `md5`, and under this name the registry
hands out the models that are loaded.  No digest looks like one of the registry's own keys.

* `netUniqueId` — the name, and `netUniqueId_eq_iff`, when two models have the same;
* `Digested` — the calls of a program that names its models so;
* `sameModel_iff` — in all its runs, who gets the same model.
-/
import HandTracking.Md5
import HandTracking.ModelRegistry

namespace Xengine

open Md5 MerkleDamgard Microtar Transition

/-- `net_unique_id`, for the bytes of the model -/
def netUniqueId (model : Bytes) : String := String.ofList (md5str (md5 model))

theorem netUniqueId_eq_iff {model model' : Bytes} (h : model.length < 2 ^ 61)
    (h' : model'.length < 2 ^ 61) :
    netUniqueId model = netUniqueId model' ↔
      model = model' ∨ Collides compress Md5.initial (blocks model) (blocks model') := by
  rw [netUniqueId, netUniqueId, String.ofList_inj, md5str_eq_iff h h']

theorem digitChar_ne_underscore {n : ℕ} (hn : n < 16) : Nat.digitChar n ≠ '_' := by
  have hall : ∀ n < 16, Nat.digitChar n ≠ '_' := by decide
  exact hall n hn

/-- A digest has no underscore. -/
theorem not_isNewkey_netUniqueId (model : Bytes) : ¬IsNewkey (netUniqueId model) := by
  intro h
  have hlist : (netUniqueId model).toList = md5str (md5 model) := String.toList_ofList
  rw [IsNewkey, hlist] at h
  have hmem : '_' ∈ md5str (md5 model) := h.subset (show '_' ∈ "_newkey_".toList by decide)
  obtain ⟨b, -, hb⟩ := List.mem_flatMap.mp hmem
  have hlt := b.isLt
  rcases List.mem_cons.mp hb with hhigh | hlow
  · exact digitChar_ne_underscore (by omega) hhigh.symm
  · exact digitChar_ne_underscore (Nat.mod_lt _ (by omega)) (List.mem_singleton.mp hlow).symm

/-- One `Init` for each object, with the digest of a model whose size has 32 bits. -/
def Digested (s : Registry) : Action → Prop
  | .init id netname _ =>
    (∃ model : Bytes, model.length < 2 ^ 32 ∧ netname = netUniqueId model) ∧
      ∀ o ∈ s.objects.find? id, o.given = none
  | _ => True

theorem Digested.usage {s : Registry} {a : Action} (h : Digested s a) : Usage s a := by
  cases a with
  | construct => trivial
  | destroy => trivial
  | init id netname status =>
    obtain ⟨⟨model, -, rfl⟩, hgiven⟩ := h
    exact ⟨not_isNewkey_netUniqueId model, hgiven⟩

/-- An object whose model may be shared has it under the name that it asked for. -/
theorem Sound.netname_of_not_isNewkey {b : Build} {s : Registry} (h : Sound b s) {id : ℕ}
    {o : Inference} {name : String} {m : AIModel} (ho : s.objects.find? id = some o)
    (hgiven : o.given = some name) (hm : o.modelimpl = some m) (hkey : ¬IsNewkey o.netname) :
    o.netname = name := by
  obtain ⟨name', hname', -, hor⟩ := h.asked ho hm
  rw [hgiven] at hname'
  obtain rfl := Option.some.inj hname'
  exact hor.resolve_right hkey

/-- **Who gets the same model.**  Two objects have one model exactly if it may be shared, both have
it under the name that they asked for, and the bytes of their models are the same, or the chains of
their chunks collide. -/
theorem sameModel_iff {b : Build} {as : List Action} {es : List Status} {s : Registry}
    (run : Run (step b) (fun s a => Digested s a ∧ FreeNewkey b s a) Registry.initial as es s)
    {id id' : ℕ} (hne : id ≠ id') {o o' : Inference} {model model' : Bytes} {m m' : AIModel}
    (hlen : model.length < 2 ^ 32) (hlen' : model'.length < 2 ^ 32)
    (ho : s.objects.find? id = some o) (hgiven : o.given = some (netUniqueId model))
    (hm : o.modelimpl = some m) (ho' : s.objects.find? id' = some o')
    (hgiven' : o'.given = some (netUniqueId model')) (hm' : o'.modelimpl = some m') :
    m = m' ↔ m.isShared b = true ∧ o.netname = netUniqueId model ∧
      o'.netname = netUniqueId model' ∧
        (model = model' ∨ Collides compress Md5.initial (blocks model) (blocks model')) := by
  have hsound := sound_run (run.mono fun _ _ h => ⟨h.1.usage, h.2⟩)
  have hid := holds_eq_some_iff.mpr ⟨o, ho, hm, rfl⟩
  have hid' := holds_eq_some_iff.mpr ⟨o', ho', hm', rfl⟩
  have hkeys : m = m' ↔ o.netname = o'.netname := hsound.tracks.eq_iff hid hid'
  rw [← netUniqueId_eq_iff (by omega) (by omega)]
  constructor
  · rintro rfl
    obtain ⟨hshared, hkey⟩ := hsound.shares hne hid hid'
    obtain ⟨-, hkey'⟩ := hsound.shares hne.symm hid' hid
    have hname := hsound.netname_of_not_isNewkey ho hgiven hm hkey
    have hname' := hsound.netname_of_not_isNewkey ho' hgiven' hm' hkey'
    exact ⟨hshared, hname, hname', hname.symm.trans ((hkeys.mp rfl).trans hname')⟩
  · rintro ⟨-, hname, hname', hsame⟩
    exact hkeys.mpr (hname.trans (hsame.trans hname'.symm))

/-- The registry with one model under a name, and the objects. -/
def oneModel (name : String) (objects : OrderedMap ℕ Inference) : Registry :=
  ⟨0, Function.update (fun _ => none) name (some ⟨0, .snpe⟩), 1, objects⟩

theorem hasmod_oneModel (name : String) (objects : OrderedMap ℕ Inference) :
    (oneModel name objects).hasmod name = some ⟨0, .snpe⟩ := by
  show Function.update (fun _ => none) name (some (⟨0, .snpe⟩ : AIModel)) name = _
  rw [Function.update_self]

/-- An object that has been made, and one that has been given the model. -/
def made : Inference := ⟨"", .snpe, none, none⟩

/-- An object that was given a key, and the model under it. -/
def holder (name : String) : Inference := ⟨name, .snpe, some ⟨0, .snpe⟩, some name⟩

/-- One object of this kind. -/
def firstHolder (name : String) : OrderedMap ℕ Inference :=
  (OrderedMap.empty.assign 0 made).assign 0 (holder name)

/-- The second object is given the model of the first. -/
theorem step_second (name : String) :
    step mnnAndSnpe (oneModel name ((firstHolder name).assign 1 made)) (.init 1 name .success) =
      some (oneModel name (((firstHolder name).assign 1 made).assign 1 (holder name)),
        [.success]) := by
  set s := oneModel name ((firstHolder name).assign 1 made)
  have hregistered : s.hasmod name = some ⟨0, .snpe⟩ := hasmod_oneModel ..
  have hmodel : Registry.createModelPtr mnnAndSnpe s name .snpe = (some ⟨0, .snpe⟩, name, s) := by
    rw [Registry.createModelPtr, hregistered]
    rfl
  show some ((Registry.init mnnAndSnpe s 1 made name .success).2,
    [(Registry.init mnnAndSnpe s 1 made name .success).1]) = _
  rw [Registry.init, made, hmodel]
  rfl

/-- Two objects ask for one name. -/
theorem run_second {model : Bytes} (hlen : model.length < 2 ^ 32) :
    Run (step mnnAndSnpe) (fun s a => Digested s a ∧ FreeNewkey mnnAndSnpe s a) Registry.initial
      [.construct 0 .snpe, .init 0 (netUniqueId model) .success, .construct 1 .snpe,
        .init 1 (netUniqueId model) .success] [.success, .success]
      (oneModel (netUniqueId model) (((firstHolder (netUniqueId model)).assign 1 made).assign 1
        (holder (netUniqueId model)))) := by
  have hasks : ∃ model' : Bytes, model'.length < 2 ^ 32 ∧ netUniqueId model = netUniqueId model' :=
    ⟨model, hlen, rfl⟩
  generalize netUniqueId model = name at hasks ⊢
  have hgiven : ∀ o ∈ some made, o.given = none := by
    rintro o ⟨⟩
    rfl
  have first : Run (step mnnAndSnpe) (fun s a => Digested s a ∧ FreeNewkey mnnAndSnpe s a)
      Registry.initial [.construct 0 .snpe] []
      ⟨0, fun _ => none, 0, OrderedMap.empty.assign 0 made⟩ :=
    .snoc .nil ⟨trivial, trivial⟩ rfl
  have second : Run (step mnnAndSnpe) (fun s a => Digested s a ∧ FreeNewkey mnnAndSnpe s a)
      Registry.initial [.construct 0 .snpe, .init 0 name .success] [.success]
      (oneModel name (firstHolder name)) :=
    .snoc first ⟨⟨hasks, hgiven⟩, nofun⟩ rfl
  have third : Run (step mnnAndSnpe) (fun s a => Digested s a ∧ FreeNewkey mnnAndSnpe s a)
      Registry.initial [.construct 0 .snpe, .init 0 name .success, .construct 1 .snpe] [.success]
      (oneModel name ((firstHolder name).assign 1 made)) :=
    .snoc second ⟨trivial, trivial⟩ rfl
  refine .snoc third ⟨⟨hasks, hgiven⟩, fun m hm hshared => ?_⟩ (step_second name)
  -- the model may be shared
  rw [hasmod_oneModel] at hm
  obtain rfl := Option.mem_some_iff.mp hm
  exact absurd hshared (by decide)

/-- The object that has another model, under another name. -/
def otherHolder (name : String) : Inference := ⟨name, .snpe, some ⟨1, .snpe⟩, some name⟩

/-- The registry with a second model. -/
def twoModels (name name' : String) (objects : OrderedMap ℕ Inference) : Registry :=
  ⟨0, Function.update (oneModel name objects).hasmod name' (some ⟨1, .snpe⟩), 2, objects⟩

/-- A third object is given a model of its own. -/
theorem step_third {name name' : String} (hne : name' ≠ name) {objects : OrderedMap ℕ Inference}
    (hfind : objects.find? 2 = some made) :
    step mnnAndSnpe (oneModel name objects) (.init 2 name' .success) =
      some (twoModels name name' (objects.assign 2 (otherHolder name')), [.success]) := by
  have hfree : (oneModel name objects).hasmod name' = none := by
    show Function.update (fun _ => none) name (some (⟨0, .snpe⟩ : AIModel)) name' = none
    rw [Function.update_of_ne hne]
  have hmodel : Registry.createModelPtr mnnAndSnpe (oneModel name objects) name' .snpe =
      (some ⟨1, .snpe⟩, name', twoModels name name' objects) := by
    rw [Registry.createModelPtr, hfree]
    rfl
  have hobject : (oneModel name objects).objects.find? 2 = some made := hfind
  rw [step, hobject]
  dsimp only
  rw [Registry.init, made, hmodel]
  rfl

/-- The objects after the three calls of `Init`. -/
def threeHolders (name name' : String) : OrderedMap ℕ Inference :=
  ((((firstHolder name).assign 1 made).assign 1 (holder name)).assign 2 made).assign 2
    (otherHolder name')

/-- Two objects ask for one name, and a third one for another. -/
theorem run_third {model model' : Bytes} (hlen : model.length < 2 ^ 32)
    (hlen' : model'.length < 2 ^ 32) (hne : netUniqueId model' ≠ netUniqueId model) :
    Run (step mnnAndSnpe) (fun s a => Digested s a ∧ FreeNewkey mnnAndSnpe s a) Registry.initial
      [.construct 0 .snpe, .init 0 (netUniqueId model) .success, .construct 1 .snpe,
        .init 1 (netUniqueId model) .success, .construct 2 .snpe,
        .init 2 (netUniqueId model') .success] [.success, .success, .success]
      (twoModels (netUniqueId model) (netUniqueId model')
        (threeHolders (netUniqueId model) (netUniqueId model'))) := by
  have hasks : ∃ model'' : Bytes, model''.length < 2 ^ 32 ∧
      netUniqueId model' = netUniqueId model'' := ⟨model', hlen', rfl⟩
  have hsecond := run_second hlen
  generalize netUniqueId model = name at hne hsecond ⊢
  generalize netUniqueId model' = name' at hne hasks ⊢
  have hgiven : ∀ o ∈ some made, o.given = none := by
    rintro o ⟨⟩
    rfl
  let objects := ((firstHolder name).assign 1 made).assign 1 (holder name)
  have hconstruct : step mnnAndSnpe (oneModel name objects) (.construct 2 .snpe) =
      some (oneModel name (objects.assign 2 made), []) := rfl
  have hinit : step mnnAndSnpe (oneModel name (objects.assign 2 made)) (.init 2 name' .success) =
      some (twoModels name name' (threeHolders name name'), [.success]) := step_third hne rfl
  have third : Run (step mnnAndSnpe) (fun s a => Digested s a ∧ FreeNewkey mnnAndSnpe s a)
      Registry.initial [.construct 0 .snpe, .init 0 name .success, .construct 1 .snpe,
        .init 1 name .success, .construct 2 .snpe] [.success, .success]
      (oneModel name (objects.assign 2 made)) :=
    .snoc hsecond ⟨trivial, trivial⟩ hconstruct
  refine .snoc third ⟨⟨hasks, hgiven⟩, fun m hm _ => ?_⟩ hinit
  -- the name is free
  have hfree : Function.update (fun _ => none) name (some (⟨0, .snpe⟩ : AIModel)) name' = some m :=
    hm
  rw [Function.update_of_ne hne] at hfree
  exact nomatch hfree

/-- The first two objects have one model, and the third has another. -/
theorem sameModel_iff_threeObjects :
    ((⟨0, .snpe⟩ : AIModel) = ⟨0, .snpe⟩ ↔ AIModel.isShared mnnAndSnpe ⟨0, .snpe⟩ = true ∧
      (holder (netUniqueId [1, 2, 3])).netname = netUniqueId [1, 2, 3] ∧
        (holder (netUniqueId [1, 2, 3])).netname = netUniqueId [1, 2, 3] ∧
          (([1, 2, 3] : Bytes) = [1, 2, 3] ∨
            Collides compress Md5.initial (blocks [1, 2, 3]) (blocks [1, 2, 3]))) ∧
    ((⟨0, .snpe⟩ : AIModel) = ⟨1, .snpe⟩ ↔ AIModel.isShared mnnAndSnpe ⟨0, .snpe⟩ = true ∧
      (holder (netUniqueId [1, 2, 3])).netname = netUniqueId [1, 2, 3] ∧
        (otherHolder (netUniqueId [4, 5])).netname = netUniqueId [4, 5] ∧
          (([1, 2, 3] : Bytes) = [4, 5] ∨
            Collides compress Md5.initial (blocks [1, 2, 3]) (blocks [4, 5]))) := by
  have hne : netUniqueId [4, 5] ≠ netUniqueId [1, 2, 3] := by decide +kernel
  have run := run_third (by decide) (by decide) hne
  constructor
  · exact sameModel_iff run Nat.zero_ne_one (by decide) (by decide) rfl rfl rfl rfl rfl rfl
  · exact sameModel_iff run (by decide : 0 ≠ 2) (by decide) (by decide) rfl rfl rfl rfl rfl rfl

end Xengine
