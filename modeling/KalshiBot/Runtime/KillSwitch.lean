import KalshiBot.Library.PythonText

/-! # The kill switch

A file whose presence halts dispatch, read through a short cache. The file system
enters as readings: whether the file exists, and what reading its text gives.
-/

namespace KalshiBot.Runtime

open PythonText

set_option autoImplicit false

structure KillSwitch where
  ttlSeconds : ℚ := 1
  cached : Option Bool := none
  checkedAtNs : ℤ := 0
  deriving DecidableEq

/-- `read_text` raises an `OSError`, or a `UnicodeDecodeError` on bytes that are not text. -/
inductive ReadText where
  | text (contents : String)
  | osError
  | undecodable
  deriving DecidableEq

namespace KillSwitch

def isEngaged (s : KillSwitch) (fileExists : Bool) (nowNs : ℤ) : Bool × KillSwitch :=
  let read := (fileExists, { s with cached := some fileExists, checkedAtNs := nowNs })
  match s.cached with
  | none => read
  | some engaged =>
    if ((nowNs - s.checkedAtNs : ℤ) : ℚ) < s.ttlSeconds * 10 ^ 9 then (engaged, s) else read

/-- The cached value while it is young enough, else a look at the file. -/
theorem isEngaged_cases (s : KillSwitch) (fileExists : Bool) (nowNs : ℤ) :
    (∃ value ∈ s.cached, ((nowNs - s.checkedAtNs : ℤ) : ℚ) < s.ttlSeconds * 10 ^ 9 ∧
      s.isEngaged fileExists nowNs = (value, s)) ∨
    s.isEngaged fileExists nowNs =
      (fileExists, { s with cached := some fileExists, checkedAtNs := nowNs }) := by
  cases hCached : s.cached with
  | none =>
    right
    simp only [isEngaged, hCached]
  | some value =>
    simp only [isEngaged, hCached]
    split
    next hYoung => exact .inl ⟨value, rfl, hYoung, rfl⟩
    next => exact .inr rfl

theorem isEngaged_of_uncached {s : KillSwitch} (hCached : s.cached = none)
    (fileExists : Bool) (nowNs : ℤ) : (s.isEngaged fileExists nowNs).1 = fileExists := by
  simp only [isEngaged, hCached]

/-- What `engage` and `release` do once they have written or removed the file. -/
def invalidate (s : KillSwitch) : KillSwitch := { s with cached := none, checkedAtNs := 0 }

/-- The recorded text; only an `OSError` is caught, `none` is an exception that is not. -/
def reason : ReadText → Option (Option String)
  | .text contents => some (some (String.ofList (strip contents.toList)))
  | .osError => some none
  | .undecodable => none

end KillSwitch

end KalshiBot.Runtime
