/-
The inputs that `HandLiftCalculator` builds for its lift networks, and what each network
reads of them.

`LiftNetInputs` can hold the keypoints of a hand in two ways: as pixels (`inputKpt`) and as
normalised coordinates by components (`mCam`).  The calculator fills the second, and of the
three networks only `GMLPLiftNimble` reads the second.

* `liftNetInputs` — one hand of `HandLiftCalculator::Process`;
* `LiftNet.preProcess` — the `PreProcess` functions, without the temporal memory;
* `preProcess_startsFrom_iff` — when a network starts from the rays of the keypoints.
-/
import HandTracking.HandsData

namespace Lift

open Camera Calculator

/-- `m_leftcam_x`, `m_leftcam_y` and `m_leftcam_z`, or those of the right camera. -/
structure CamCoords (K : Type) where
  x : List K
  y : List K
  z : List K

/-- `LiftNetInputs`: what a lift network is given. -/
structure LiftNetInputs (K : Type) where
  inputKpt : Cam → List (Vec2 K)
  mCam : Cam → CamCoords K
  timestamp : K
  isLeft : K

/-- The keypoints of one hand in both cameras. -/
abbrev StereoPoints (V : Type) := Cam → Fin kAlgoKeypointNum → V

/-- What a loop over `kAlgoKeypointNum` indices reads of a list, and `none` where it leaves
the list. -/
def readAll {V : Type} (l : List V) : Option (Fin kAlgoKeypointNum → V) :=
  if h : kAlgoKeypointNum ≤ l.length then some fun i => l.get ⟨i, lt_of_lt_of_le i.isLt h⟩
  else none

theorem readAll_of_le {V : Type} {l : List V} (h : kAlgoKeypointNum ≤ l.length) :
    ∃ v, readAll l = some v ∧ ∀ i, l[i.val]? = some (v i) :=
  ⟨_, dif_pos h, fun i => List.getElem?_eq_getElem (lt_of_lt_of_le i.isLt h)⟩

@[simp]
theorem readAll_ofFn {V : Type} (v : Fin kAlgoKeypointNum → V) :
    readAll (List.ofFn v) = some v := by
  have hlength : kAlgoKeypointNum ≤ (List.ofFn v).length := (List.length_ofFn).ge
  rw [readAll, dif_pos hlength]
  exact congrArg some (funext fun i => List.getElem_ofFn _)

/-- A value for each camera. -/
def byCam {V : Type} (left right : V) : Cam → V
  | .lcam => left
  | .rcam => right

/-- The points of both cameras, if all of them can be read. -/
def readBoth {V : Type} (l : Cam → List V) : Option (StereoPoints V) :=
  match readAll (l .lcam), readAll (l .rcam) with
  | some left, some right => some (byCam left right)
  | _, _ => none

theorem readBoth_of_le {V : Type} {l : Cam → List V} (h : ∀ c, kAlgoKeypointNum ≤ (l c).length) :
    ∃ v, readBoth l = some v ∧ ∀ c i, (l c)[i.val]? = some (v c i) := by
  obtain ⟨left, hleft, hleftAt⟩ := readAll_of_le (h .lcam)
  obtain ⟨right, hright, hrightAt⟩ := readAll_of_le (h .rcam)
  refine ⟨byCam left right, by rw [readBoth, hleft, hright], ?_⟩
  intro c i
  cases c with
  | lcam => exact hleftAt i
  | rcam => exact hrightAt i

@[simp]
theorem readBoth_nil {V : Type} : readBoth (fun _ => ([] : List V)) = none := rfl

variable {K : Type}

/-- The vectors that hold the given points. -/
def CamCoords.ofPoints (p : Fin kAlgoKeypointNum → Vec3 K) : CamCoords K where
  x := List.ofFn fun i => p i 0
  y := List.ofFn fun i => p i 1
  z := List.ofFn fun i => p i 2

/-- The points whose components the three lists hold. -/
def CamCoords.read (coords : CamCoords K) : Option (Fin kAlgoKeypointNum → Vec3 K) :=
  match readAll coords.x, readAll coords.y, readAll coords.z with
  | some x, some y, some z => some fun i => ![x i, y i, z i]
  | _, _, _ => none

@[simp]
theorem CamCoords.read_ofPoints (p : Fin kAlgoKeypointNum → Vec3 K) :
    (CamCoords.ofPoints p).read = some p := by
  simp only [CamCoords.read, CamCoords.ofPoints, readAll_ofFn]
  congr 1
  funext i k
  fin_cases k <;> rfl

section Calculator

variable [Field K]

/-- A point of the image in homogeneous coordinates. -/
def homogeneous (p : Vec2 K) : Vec3 K := ![p 0, p 1, 1]

/-! ### The calculator -/

/-- `is_left` -/
def isLeft : Hand → K
  | .left => 1
  | .right => 0

/-- The inputs for one hand, and `none` where a list of keypoints is too short. -/
def liftNetInputs (lib : CameraLib K) (camModel : Cam → CameraModel K)
    (seen : Cam → CamKeypoints K) (timestamp : K) (hand : Hand) : Option (LiftNetInputs K) :=
  let mCam : Option (Cam → CamCoords K) :=
    match (seen .lcam).virtualCamera, (seen .rcam).virtualCamera with
    | none, none =>
      (readBoth fun c => (seen c).kpt.map ((camModel c).undistort lib)).map fun inputKpt c =>
        .ofPoints fun i => homogeneous ((camModel c).cameraIntrinsics.normalize (inputKpt c i))
    | some lcamVirtual, some rcamVirtual =>
      (readBoth fun c => (seen c).kpt).map fun inputKpt c =>
        let camera := (byCam lcamVirtual rcamVirtual c).val
        .ofPoints fun i =>
          camera.cameraToWorldXf.apply
            (homogeneous (camera.cameraIntrinsics.normalize (inputKpt c i)))
    -- the numbers of boxes and virtual cameras differ: the lists keep their zeros
    | _, _ => some fun _ => .ofPoints fun _ => 0
  -- the pixels stay in local variables
  mCam.map fun mCam =>
    { inputKpt := fun _ => [], mCam := mCam, timestamp := timestamp, isLeft := isLeft hand }

/-- The point at depth 1 on the ray of a keypoint: undistorted and normalised by the
intrinsics; for a keypoint in the image of a virtual camera, which has no distortion, moved
to the frame of the camera that took the image. -/
def keypointRay (lib : CameraLib K) (camera : CameraModel K)
    (virtualCamera : Option (PerspectiveCameraModel K)) (p : Vec2 K) : Vec3 K :=
  match virtualCamera with
  | none => homogeneous (camera.cameraIntrinsics.normalize (camera.undistort lib p))
  | some v => v.val.eyeToWorld (homogeneous (v.val.cameraIntrinsics.normalize p))

section

variable (lib : CameraLib K) (camModel : Cam → CameraModel K) {seen : Cam → CamKeypoints K}

/-- The points behind `mCam`, by the virtual cameras of the two images. -/
def calculatorPoints (seen : Cam → CamKeypoints K) : Cam → Vec2 K → Vec3 K :=
  if (seen .lcam).virtualCamera.isSome = (seen .rcam).virtualCamera.isSome then
    fun c => keypointRay lib (camModel c) (seen c).virtualCamera
  else fun _ _ => 0

/-- What the calculator hands over: no pixels, and a point for each keypoint. -/
theorem liftNetInputs_spec (timestamp : K) (hand : Hand)
    (hkpt : ∀ c, kAlgoKeypointNum ≤ (seen c).kpt.length) :
    ∃ points : StereoPoints (Vec3 K),
      liftNetInputs lib camModel seen timestamp hand = some
        ⟨fun _ => [], fun c => .ofPoints (points c), timestamp, isLeft hand⟩ ∧
      ∀ (c : Cam) (i : Fin kAlgoKeypointNum) (p : Vec2 K), (seen c).kpt[i.val]? = some p →
        points c i = calculatorPoints lib camModel seen c p := by
  cases hleft : (seen .lcam).virtualCamera with
  | none =>
    cases hright : (seen .rcam).virtualCamera with
    | none =>
      -- without virtual cameras the keypoints are undistorted first
      have hvirtual : ∀ c, (seen c).virtualCamera = none := by
        intro c
        cases c
        · exact hleft
        · exact hright
      have hlength : ∀ c,
          kAlgoKeypointNum ≤ ((seen c).kpt.map ((camModel c).undistort lib)).length := by
        intro c
        rw [List.length_map]
        exact hkpt c
      obtain ⟨inputKpt, hread, hat⟩ := readBoth_of_le hlength
      refine ⟨fun c i => homogeneous ((camModel c).cameraIntrinsics.normalize (inputKpt c i)),
        by simp only [liftNetInputs, hleft, hright, hread, Option.map_some], ?_⟩
      intro c i p hp
      have hundistort := hat c i
      rw [List.getElem?_map, hp] at hundistort
      have hpixel := Option.some.inj hundistort
      simp only [calculatorPoints, hleft, hright, if_pos, keypointRay, hvirtual c, hpixel]
    | some vr =>
      -- with one virtual camera no points are made
      refine ⟨fun _ _ => 0, by simp only [liftNetInputs, hleft, hright, Option.map_some], ?_⟩
      intro c i p _
      simp [calculatorPoints, hleft, hright]
  | some vl =>
    cases hright : (seen .rcam).virtualCamera with
    | none =>
      refine ⟨fun _ _ => 0, by simp only [liftNetInputs, hleft, hright, Option.map_some], ?_⟩
      intro c i p _
      simp [calculatorPoints, hleft, hright]
    | some vr =>
      have hvirtual : ∀ c, (seen c).virtualCamera = some (byCam vl vr c) := by
        intro c
        cases c
        · exact hleft
        · exact hright
      obtain ⟨inputKpt, hread, hat⟩ := readBoth_of_le hkpt
      refine ⟨fun c i => let camera := (byCam vl vr c).val
          camera.cameraToWorldXf.apply
            (homogeneous (camera.cameraIntrinsics.normalize (inputKpt c i))),
        by simp only [liftNetInputs, hleft, hright, hread, Option.map_some], ?_⟩
      intro c i p hp
      have hsame := hat c i
      rw [hp] at hsame
      obtain rfl := Option.some.inj hsame
      simp only [calculatorPoints, hleft, hright, Option.isSome_some, if_pos, keypointRay,
        hvirtual c, CameraModel.eyeToWorld]

/-- A point at depth 1 is not at 0. -/
theorem exists_keypointRay_ne_zero (h : (seen .lcam).virtualCamera.isSome ≠
    (seen .rcam).virtualCamera.isSome) :
    ∃ c, ∀ p, keypointRay lib (camModel c) (seen c).virtualCamera p ≠ 0 := by
  have hnone : ∃ c, (seen c).virtualCamera = none := by
    cases hleft : (seen .lcam).virtualCamera with
    | none => exact ⟨.lcam, hleft⟩
    | some vl =>
      refine ⟨.rcam, ?_⟩
      rw [hleft] at h
      simpa using h.symm
  obtain ⟨c, hc⟩ := hnone
  refine ⟨c, fun p hzero => ?_⟩
  have hz : keypointRay lib (camModel c) (seen c).virtualCamera p 2 = 1 := by
    simp only [hc]
    rfl
  rw [hzero] at hz
  exact zero_ne_one hz

end

end Calculator

/-! ### The networks -/

section Network

variable [Field K] [LinearOrder K]

/-- The networks by the names of their models: `3d_lift_ella`, `3d_lift`, `3d_liftnimble`. -/
inductive LiftNet where
  | gmlpLiftNet
  | gmlpLiftNet3
  | gmlpLiftNimble
  deriving DecidableEq, Repr

/-- What `SetCameraInfo` and the input tensor give a network. -/
structure LiftNetConfig (K : Type) where
  camera : Cam → CameraModel K
  rot : Cam → Matrix3 K
  batch : ℕ
  multishapeNum : ℕ
  packedByBatch : Bool

/-- How `PreProcess` ends. -/
inductive PreProcessResult (K : Type) where
  | returned
  | outOfRange
  /-- The coordinates it starts from, and the tensor; `none` is left as it was. -/
  | filled (start : StereoPoints (Vec3 K)) (feat : List (Option K))

/-- The pixels of `inputKpt`, normalised by the intrinsics of the cameras. -/
def readInputKpt (config : LiftNetConfig K) (inputs : LiftNetInputs K) :
    Option (StereoPoints (Vec3 K)) :=
  (readBoth inputs.inputKpt).map fun inputKpt c i =>
    homogeneous ((config.camera c).cameraIntrinsics.normalize (inputKpt c i))

/-- The coordinates of both cameras, if all of them can be read. -/
def readCoords (inputs : LiftNetInputs K) : Option (StereoPoints (Vec3 K)) :=
  match (inputs.mCam .lcam).read, (inputs.mCam .rcam).read with
  | some left, some right => some (byCam left right)
  | _, _ => none

/-- `transfer_to_standard_stereo_input` of `GMLPLiftNet3`. -/
def transferToStandardStereoInput (config : LiftNetConfig K) (points : StereoPoints (Vec3 K)) :
    StereoPoints (Vec3 K) :=
  fun c i => let p := (config.rot c).mulVec (points c i); ![p 0 / p 2, p 1 / p 2, p 2 / p 2]

/-- Every coordinate is below the precision of `isZero`. -/
def isZero (points : Fin kAlgoKeypointNum → Vec3 K) : Prop :=
  ∀ i k, points i k ≤ 1 / 100000 ∧ -(1 / 100000) ≤ points i k

instance (points : Fin kAlgoKeypointNum → Vec3 K) : Decidable (isZero points) :=
  inferInstanceAs (Decidable (∀ i k, points i k ≤ 1 / 100000 ∧ -(1 / 100000) ≤ points i k))

/-- `transfer_to_standard_stereo_input` of `GMLPLiftNimble`, which leaves points at 0. -/
def transferNimble (config : LiftNetConfig K) (points : StereoPoints (Vec3 K)) :
    StereoPoints (Vec3 K) :=
  fun c => if isZero (points c) then points c else transferToStandardStereoInput config points c

/-- `x` and `y` of the points in turn. -/
def interleaved (points : Fin kAlgoKeypointNum → Vec3 K) : List K :=
  (List.ofFn fun i => [points i 0, points i 1]).flatten

/-- The pose of a camera in the tensor of `GMLPLiftNet`. -/
def Tmatrix (T : Isometry3 K) : List K :=
  List.ofFn T.translation ++ (List.ofFn fun i => List.ofFn (T.linear i)).flatten

namespace LiftNet

/-- `PreProcess` of the three networks. -/
def preProcess (config : LiftNetConfig K) (inputs : LiftNetInputs K) :
    LiftNet → PreProcessResult K
  | gmlpLiftNet =>
    if config.batch * config.multishapeNum ≠ 1 ∨ config.packedByBatch = false then .returned
    else match readInputKpt config inputs with
      | none => .outOfRange
      | some start =>
        let row (c : Cam) (T : Isometry3 K) : List (Option K) :=
          (interleaved (start c) ++ Tmatrix T ++ [inputs.isLeft] ++ List.replicate 63 0).map some
            ++ List.replicate 10 none
        .filled start (row .lcam 1 ++ row .rcam (config.camera .rcam).cameraToWorldXf)
  | gmlpLiftNet3 =>
    match readInputKpt config inputs with
    | none => .outOfRange
    | some start =>
      let points := transferToStandardStereoInput config start
      let row (c : Cam) : List (Option K) := (interleaved (points c) ++ [inputs.isLeft]).map some
      .filled start (row .lcam ++ row .rcam)
  | gmlpLiftNimble =>
    match readCoords inputs with
    | none => .outOfRange
    | some start =>
      let points := transferNimble config start
      .filled start ((List.ofFn fun i =>
        [points .lcam i 0, points .lcam i 1, points .rcam i 0, points .rcam i 1,
          inputs.isLeft]).flatten.map some)

end LiftNet

/-- One hand of `HandLiftCalculator::Process`, to the end of `PreProcess`.  It is `none` where
the hand is not seen by both cameras, or the calculator leaves the list of its keypoints. -/
def processHand (lib : CameraLib K) (config : LiftNetConfig K) (net : LiftNet)
    (kpt2d : Kpt2dInternal K) (timestamp : K) (hand : Hand) : Option (PreProcessResult K) :=
  if (kpt2d.seen hand .lcam).valid ∧ (kpt2d.seen hand .rcam).valid then
    (liftNetInputs lib config.camera (kpt2d.seen hand) timestamp hand).map (net.preProcess config)
  else none

/-! ### What the networks start from -/

/-- Every access was in range, and the network starts from the rays of the keypoints. -/
def PreProcessResult.StartsFrom (lib : CameraLib K) (camModel : Cam → CameraModel K)
    (seen : Cam → CamKeypoints K) : PreProcessResult K → Prop
  | .returned => True
  | .outOfRange => False
  | .filled start _ => ∀ c i p, (seen c).kpt[i.val]? = some p →
      start c i = keypointRay lib (camModel c) (seen c).virtualCamera p

/-- When a network can use what the calculator hands over. -/
def LiftNet.Served (config : LiftNetConfig K) (seen : Cam → CamKeypoints K) : LiftNet → Prop
  | .gmlpLiftNet => config.batch * config.multishapeNum ≠ 1 ∨ config.packedByBatch = false
  | .gmlpLiftNet3 => False
  | .gmlpLiftNimble => (seen .lcam).virtualCamera.isSome = (seen .rcam).virtualCamera.isSome

theorem preProcess_startsFrom_iff {lib : CameraLib K} {timestamp : K} {hand : Hand}
    {config : LiftNetConfig K} {net : LiftNet}
    {kpt2d : Kpt2dInternal K} (hl : (kpt2d.seen hand .lcam).valid)
    (hr : (kpt2d.seen hand .rcam).valid)
    (hkpt : ∀ c, kAlgoKeypointNum ≤ (kpt2d.seen hand c).kpt.length) :
    ∃ result, processHand lib config net kpt2d timestamp hand = some result ∧
      (result.StartsFrom lib config.camera (kpt2d.seen hand) ↔
        net.Served config (kpt2d.seen hand)) := by
  obtain ⟨points, hinputs, hpoints⟩ := liftNetInputs_spec lib config.camera timestamp hand hkpt
  refine ⟨_, by rw [processHand, if_pos ⟨hl, hr⟩, hinputs, Option.map_some], ?_⟩
  cases net with
  | gmlpLiftNet =>
    by_cases hreturn : config.batch * config.multishapeNum ≠ 1 ∨ config.packedByBatch = false
    · simp only [LiftNet.preProcess, if_pos hreturn, LiftNet.Served]
      exact iff_of_true trivial hreturn
    · simp only [LiftNet.preProcess, if_neg hreturn, LiftNet.Served, readInputKpt, readBoth_nil,
        Option.map_none]
      exact iff_of_false id hreturn
  | gmlpLiftNet3 =>
    simp only [LiftNet.preProcess, LiftNet.Served, readInputKpt, readBoth_nil, Option.map_none]
    exact iff_of_false id id
  | gmlpLiftNimble =>
    have hread : ∀ c i, byCam (points .lcam) (points .rcam) c i = points c i := by
      intro c i
      cases c <;> rfl
    simp only [LiftNet.preProcess, LiftNet.Served, readCoords, CamCoords.read_ofPoints,
      PreProcessResult.StartsFrom, hread]
    constructor
    · intro hstart
      by_contra hne
      obtain ⟨c, hc⟩ := exists_keypointRay_ne_zero lib config.camera hne
      -- with one virtual camera the calculator leaves zeros, and a ray has depth 1.
      let first : Fin kAlgoKeypointNum := ⟨0, by decide⟩
      have hat := List.getElem?_eq_getElem (lt_of_lt_of_le first.isLt (hkpt c))
      refine hc _ ((hstart c first _ hat).symm.trans ?_)
      rw [hpoints c first _ hat, calculatorPoints, if_neg hne]
    · intro hsame c i p hp
      rw [hpoints c i p hp, calculatorPoints, if_pos hsame]

/-- A hand seen by both cameras, with all keypoints at 0. -/
def kpt2dBoth : Kpt2dInternal ℚ where
  seen _ _ := { CamKeypoints.init with valid := true }
  holdLabel _ := false

/-- A camera without distortion, at the origin. -/
def idealCamera : CameraModel ℚ where
  cameraIntrinsics := ⟨1, 1, 0, 0⟩
  distortionModel := .noDistortion
  cameraToWorldXf := 1
  cameraType := .pinhole
  videoWidth := 640
  videoHeight := 480

/-- Two such cameras, and one tensor. -/
def idealConfig : LiftNetConfig ℚ where
  camera _ := idealCamera
  rot _ := 1
  batch := 1
  multishapeNum := 1
  packedByBatch := true

/-- A library that leaves all points as they are. -/
def idealLib : CameraLib ℚ where
  radialUndistort _ p := p
  fisheyeUndistort _ p := p
  fisheye624Distort _ p := p
  fisheye624Undistort _ p := p

/-- A hand with its keypoints apart, a little further to the left in the right image. -/
def kpt2dFan : Kpt2dInternal ℚ where
  seen _ cam := { CamKeypoints.init with
    kpt := List.ofFn fun i : Fin kAlgoKeypointNum =>
      ![300 + 5 * i.val - (if cam = .rcam then 40 else 0), 100 + 10 * i.val]
    valid := true }
  holdLabel _ := false

/-- Two such cameras with intrinsics. -/
def fanConfig : LiftNetConfig ℚ :=
  { idealConfig with
    camera := fun _ => { idealCamera with cameraIntrinsics := ⟨400, 400, 320, 240⟩ } }

/-- The last network starts from the rays of the keypoints. -/
theorem preProcess_startsFrom_iff_both :
    ∃ result, processHand idealLib fanConfig .gmlpLiftNimble kpt2dFan 0 .left = some result ∧
      result.StartsFrom idealLib fanConfig.camera (kpt2dFan.seen .left) := by
  have hkpt : ∀ c, kAlgoKeypointNum ≤ (kpt2dFan.seen .left c).kpt.length := by
    intro c
    show kAlgoKeypointNum ≤ (List.ofFn _).length
    rw [List.length_ofFn]
  have hl : (kpt2dFan.seen .left .lcam).valid := rfl
  have hr : (kpt2dFan.seen .left .rcam).valid := rfl
  obtain ⟨result, hresult, hstarts⟩ : ∃ result,
      processHand idealLib fanConfig .gmlpLiftNimble kpt2dFan 0 .left = some result ∧
        (result.StartsFrom idealLib fanConfig.camera (kpt2dFan.seen .left) ↔
          LiftNet.gmlpLiftNimble.Served fanConfig (kpt2dFan.seen .left)) :=
    preProcess_startsFrom_iff hl hr hkpt
  exact ⟨result, hresult, hstarts.mpr rfl⟩

/-- Not every network reads in range: `GMLPLiftNet3` reads the pixels, which are not there. -/
theorem gmlpLiftNet3_outOfRange :
    ¬ ∀ net : LiftNet, ∃ result,
      processHand idealLib idealConfig net kpt2dBoth 0 .left = some result ∧
        result.StartsFrom idealLib idealConfig.camera (kpt2dBoth.seen .left) := by
  intro h
  obtain ⟨result, hresult, hstart⟩ := h .gmlpLiftNet3
  obtain rfl : PreProcessResult.outOfRange = result := Option.some.inj hresult
  exact hstart

end Network

end Lift
