/-
`eye_to_window` with its divisions.

A float division by zero leaves an infinity or no number.  Here each division of the source is
one that may have no value, so that a projection has a value only where it divides by nothing
that is zero.

* `divide` — one division;
* `projectChecked`, `Distortion.distortChecked`, `CameraModel.eyeToWindowChecked` — the
  functions of `CameraModel` with it;
* `eyeToWindowChecked_eq` — where the divisors are not zero they compute the same;
* `projectsAhead_iff` — the points ahead of a camera that it can project.
-/
import HandTracking.PerspectiveCrop

namespace Camera

variable {K : Type} [Field K] [LinearOrder K]

/-! ### Divisions -/

/-- A division has no value where the divisor is zero. -/
def divide (a b : K) : Option K := if b = 0 then none else some (a / b)

theorem divide_of_ne {a b : K} (h : b ≠ 0) : divide a b = some (a / b) := if_neg h

theorem divide_zero (a : K) : divide a 0 = none := if_pos rfl

/-! ### The projection -/

/-- `PerspectiveProjection::project` -/
def projectChecked (p : Vec3 K) : Option (Vec2 K) := do
  let x ← divide (p 0) (p 2)
  let y ← divide (p 1) (p 2)
  return ![x, y]

theorem projectChecked_of_ne {p : Vec3 K} (h : p 2 ≠ 0) :
    projectChecked p = some (project p) := by
  rw [projectChecked, divide_of_ne h, divide_of_ne h]
  rfl

/-! ### The distortions -/

namespace Distortion

/-- `distort`, or `none` where it divides by zero. -/
def distortChecked (fns : RealFns K) (lib : CameraLib K) : Distortion K → Vec2 K → Option (Vec2 K)
  | .noDistortion, p => some p
  | .openCVPinhole k1 k2 p1 p2 k3, p =>
    let r2 := squaredNorm p
    let r4 := r2 * r2
    let r6 := r4 * r2
    let x := p 0
    let y := p 1
    some ![x * (1 + k1 * r2 + k2 * r4 + k3 * r6) + 2 * p1 * x * y + p2 * (r2 + 2 * x * x),
      y * (1 + k1 * r2 + k2 * r4 + k3 * r6) + 2 * p2 * x * y + p1 * (r2 + 2 * y * y)]
  | .openCVFisheye k1 k2 k3 k4, p => do
    let r2 := squaredNorm p
    let theta := fns.atan (fns.sqrt r2)
    let theta2 := theta * theta
    let theta4 := theta2 * theta2
    let theta6 := theta2 * theta4
    let theta8 := theta4 * theta4
    let thetad := theta * (1 + k1 * theta2 + k2 * theta4 + k3 * theta6 + k4 * theta8)
    let x ← divide (p 0 * thetad) (fns.sqrt r2)
    let y ← divide (p 1 * thetad) (fns.sqrt r2)
    return ![x, y]
  -- the divisions of the camera library are its own
  | .fisheye624 k1 k2 k3 k4 p1 p2 k5 k6 s1 s2 s3 s4, p =>
    some (lib.fisheye624Distort ![k1, k2, k3, k4, k5, k6, p1, p2, s1, s2, s3, s4] p)

/-- The model divides by the radius. -/
def IsFisheye : Distortion K → Prop
  | .openCVFisheye .. => True
  | _ => False

/-- A model of OpenCV: pinhole or fisheye. -/
def IsOpenCV : Distortion K → Prop
  | .openCVPinhole .. => True
  | .openCVFisheye .. => True
  | _ => False

variable (fns : RealFns K) (lib : CameraLib K) {d : Distortion K} {p : Vec2 K}

theorem distortChecked_of_not_isFisheye (h : ¬ d.IsFisheye) :
    d.distortChecked fns lib p = some (d.distort fns lib p) := by
  cases d with
  | openCVFisheye k1 k2 k3 k4 => exact absurd trivial h
  | noDistortion => rfl
  | openCVPinhole k1 k2 p1 p2 k3 => rfl
  | fisheye624 k1 k2 k3 k4 p1 p2 k5 k6 s1 s2 s3 s4 => rfl

theorem distortChecked_of_sqrt_ne (h : fns.sqrt (squaredNorm p) ≠ 0) :
    d.distortChecked fns lib p = some (d.distort fns lib p) := by
  cases d with
  | openCVFisheye k1 k2 k3 k4 =>
    simp only [distortChecked]
    rw [divide_of_ne h, divide_of_ne h]
    rfl
  | noDistortion => rfl
  | openCVPinhole k1 k2 p1 p2 k3 => rfl
  | fisheye624 k1 k2 k3 k4 p1 p2 k5 k6 s1 s2 s3 s4 => rfl

theorem distortChecked_of_sqrt_eq (hd : d.IsFisheye) (h : fns.sqrt (squaredNorm p) = 0) :
    d.distortChecked fns lib p = none := by
  cases d with
  | openCVFisheye k1 k2 k3 k4 =>
    simp only [distortChecked]
    rw [h, divide_zero]
    rfl
  | noDistortion => exact hd.elim
  | openCVPinhole k1 k2 p1 p2 k3 => exact hd.elim
  | fisheye624 k1 k2 k3 k4 p1 p2 k5 k6 s1 s2 s3 s4 => exact hd.elim

/-- Where the checked distortion has a value, that is the distortion. -/
theorem distort_of_distortChecked {q : Vec2 K} (h : d.distortChecked fns lib p = some q) :
    d.distort fns lib p = q := by
  by_cases hd : d.IsFisheye
  · by_cases hr : fns.sqrt (squaredNorm p) = 0
    · rw [distortChecked_of_sqrt_eq fns lib hd hr] at h
      cases h
    · exact Option.some.inj ((distortChecked_of_sqrt_ne fns lib hr).symm.trans h)
  · exact Option.some.inj ((distortChecked_of_not_isFisheye fns lib hd).symm.trans h)

/-- Without a radial part the center stays in the center. -/
theorem distort_openCVPinhole_zero (k1 k2 p1 p2 k3 : K) (hp : p = 0) :
    (openCVPinhole k1 k2 p1 p2 k3).distort fns lib p = 0 := by
  subst hp
  funext i
  fin_cases i <;> simp [distort, squaredNorm]

end Distortion

/-! ### The camera -/

namespace CameraModel

/-- `eye_to_window` -/
def eyeToWindowChecked (fns : RealFns K) (lib : CameraLib K) (c : CameraModel K) (p : Vec3 K) :
    Option (Vec2 K) := do
  let projected ← projectChecked p
  let result ← c.distortionModel.distortChecked fns lib projected
  return c.cameraIntrinsics.denormalize result

variable (fns : RealFns K) (lib : CameraLib K) {c : CameraModel K} {p : Vec3 K}

theorem eyeToWindowChecked_of_ne (h : p 2 ≠ 0) :
    c.eyeToWindowChecked fns lib p =
      (c.distortionModel.distortChecked fns lib (project p)).map
        c.cameraIntrinsics.denormalize := by
  rw [eyeToWindowChecked, projectChecked_of_ne h]
  show (c.distortionModel.distortChecked fns lib (project p)).bind
    (fun q => some (c.cameraIntrinsics.denormalize q)) = _
  rw [Option.map_eq_bind]
  rfl

/-- Where no divisor is zero, the functions with and without checks compute the same. -/
theorem eyeToWindowChecked_eq (h : p 2 ≠ 0)
    (hd : ¬ c.distortionModel.IsFisheye ∨ fns.sqrt (squaredNorm (project p)) ≠ 0) :
    c.eyeToWindowChecked fns lib p = some (c.eyeToWindow fns lib p) := by
  rw [eyeToWindowChecked_of_ne fns lib h]
  rcases hd with hd | hr
  · rw [Distortion.distortChecked_of_not_isFisheye fns lib hd]
    rfl
  · rw [Distortion.distortChecked_of_sqrt_ne fns lib hr]
    rfl

end CameraModel

/-! ### Points ahead of the camera -/

/-- The point lies on the optical axis. -/
def OnAxis (p : Vec3 K) : Prop := p 0 = 0 ∧ p 1 = 0

/-- The point is projected without a division by zero, and to the principal point if it lies on
the optical axis. -/
structure ProjectsAhead (fns : RealFns K) (lib : CameraLib K) (c : CameraModel K) (p : Vec3 K) :
    Prop where
  total : (c.eyeToWindowChecked fns lib p).isSome
  axis : OnAxis p →
    c.eyeToWindowChecked fns lib p = some ![c.cameraIntrinsics.cx, c.cameraIntrinsics.cy]

section

variable {p : Vec3 K}

omit [LinearOrder K] in
theorem project_eq_zero (h : OnAxis p) : project p = 0 := by
  funext i
  fin_cases i
  · exact (congrArg (· / p 2) h.1).trans (zero_div _)
  · exact (congrArg (· / p 2) h.2).trans (zero_div _)

variable [IsStrictOrderedRing K] (fns : RealFns K)

theorem sqrt_squaredNorm_eq_zero_iff (q : Vec2 K) : fns.sqrt (squaredNorm q) = 0 ↔ q = 0 := by
  have hx := mul_self_nonneg (q 0)
  have hy := mul_self_nonneg (q 1)
  constructor
  · intro hzero
    have hsq := fns.mul_self_sqrt (squaredNorm q) (add_nonneg hx hy)
    rw [hzero, mul_zero] at hsq
    have hsum : q 0 * q 0 + q 1 * q 1 = 0 := hsq.symm
    funext i
    fin_cases i
    · exact mul_self_eq_zero.mp (by linarith : q 0 * q 0 = 0)
    · exact mul_self_eq_zero.mp (by linarith : q 1 * q 1 = 0)
  · rintro rfl
    apply fns.sqrt_eq le_rfl
    simp [squaredNorm]

omit [LinearOrder K] [IsStrictOrderedRing K] in
theorem project_eq_zero_iff (h : p 2 ≠ 0) : project p = 0 ↔ OnAxis p := by
  constructor
  · intro hzero
    have hx : p 0 / p 2 = 0 := congrFun hzero 0
    have hy : p 1 / p 2 = 0 := congrFun hzero 1
    exact ⟨(div_eq_zero_iff.mp hx).resolve_right h, (div_eq_zero_iff.mp hy).resolve_right h⟩
  · exact project_eq_zero

/-- The fisheye model divides zero by zero. -/
theorem eyeToWindowChecked_axis (lib : CameraLib K) {c : CameraModel K}
    (hfisheye : c.distortionModel.IsFisheye) (hne : p 2 ≠ 0) (haxis : OnAxis p) :
    c.eyeToWindowChecked fns lib p = none := by
  have hradius : fns.sqrt (squaredNorm (project p)) = 0 :=
    (sqrt_squaredNorm_eq_zero_iff fns _).mpr (project_eq_zero haxis)
  rw [CameraModel.eyeToWindowChecked_of_ne fns lib hne,
    Distortion.distortChecked_of_sqrt_eq fns lib hfisheye hradius]
  rfl

/-- Ahead of the camera the pinhole model projects every point, and the fisheye model every
point that is not on the optical axis, where it divides by the radius. -/
theorem projectsAhead_iff (lib : CameraLib K) (c : CameraModel K)
    (hmodel : c.distortionModel.IsOpenCV) {p : Vec3 K} (hdepth : 0 < p 2) :
    ProjectsAhead fns lib c p ↔ ¬ (c.distortionModel.IsFisheye ∧ OnAxis p) := by
  have hne : p 2 ≠ 0 := hdepth.ne'
  constructor
  · rintro ⟨htotal, -⟩ ⟨hfisheye, haxis⟩
    rw [eyeToWindowChecked_axis fns lib hfisheye hne haxis] at htotal
    cases htotal
  · intro hnot
    have hdivides : ¬ c.distortionModel.IsFisheye ∨ fns.sqrt (squaredNorm (project p)) ≠ 0 := by
      by_cases hfisheye : c.distortionModel.IsFisheye
      · refine Or.inr fun hradius => hnot ⟨hfisheye, ?_⟩
        exact (project_eq_zero_iff hne).mp ((sqrt_squaredNorm_eq_zero_iff fns _).mp hradius)
      · exact Or.inl hfisheye
    have hvalue := CameraModel.eyeToWindowChecked_eq fns lib hne hdivides
    refine ⟨by rw [hvalue]; rfl, fun haxis => ?_⟩
    have hpinhole : ¬ c.distortionModel.IsFisheye := fun hfisheye => hnot ⟨hfisheye, haxis⟩
    have hcenter : c.distortionModel.distort fns lib (project p) = 0 := by
      cases hd : c.distortionModel with
      | openCVPinhole k1 k2 p1 p2 k3 =>
        exact Distortion.distort_openCVPinhole_zero fns lib k1 k2 p1 p2 k3 (project_eq_zero haxis)
      | openCVFisheye k1 k2 k3 k4 =>
        rw [hd] at hpinhole
        exact absurd trivial hpinhole
      | noDistortion =>
        rw [hd] at hmodel
        exact hmodel.elim
      | fisheye624 k1 k2 k3 k4 p1 p2 k5 k6 s1 s2 s3 s4 =>
        rw [hd] at hmodel
        exact hmodel.elim
    -- the axis goes to the principal point
    rw [hvalue, CameraModel.eyeToWindow, hcenter]
    congr 1
    funext i
    fin_cases i
    · exact (congrArg (· + c.cameraIntrinsics.cx) (zero_mul _)).trans (zero_add _)
    · exact (congrArg (· + c.cameraIntrinsics.cy) (zero_mul _)).trans (zero_add _)

end

/-! ### A fisheye camera -/

/-- A fisheye camera with all coefficients 0. -/
def fisheyeCamera : CameraModel ℝ := unitCamera (.openCVFisheye 0 0 0 0) .fisheye400

theorem projectsAhead_iff_beside :
    ProjectsAhead realFns realLib fisheyeCamera ![1, 0, 1] ↔
      ¬ (fisheyeCamera.distortionModel.IsFisheye ∧ OnAxis ![(1 : ℝ), 0, 1]) :=
  projectsAhead_iff realFns realLib fisheyeCamera trivial one_pos

/-- The point ahead of the camera has no place in its window. -/
theorem fisheyeCamera_not_ahead :
    ¬ ∀ (c : CameraModel ℝ) (p : Vec3 ℝ), c.distortionModel.IsOpenCV → 0 < p 2 →
      ProjectsAhead realFns realLib c p := by
  intro h
  have htotal := (h fisheyeCamera ![0, 0, 1] trivial one_pos).total
  rw [eyeToWindowChecked_axis realFns realLib (c := fisheyeCamera) trivial one_ne_zero
    ⟨rfl, rfl⟩] at htotal
  cases htotal

end Camera
