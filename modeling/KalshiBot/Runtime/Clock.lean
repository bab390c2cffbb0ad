import Mathlib

/-! # Clocks and the boots that they belong to

A monotonic counter starts over at every boot and stands still while the machine sleeps, so that
readings of two processes have a difference only within one boot. The clock domain names the host
and, to the minute, when it was booted, as far as the wall clock can tell.
-/

namespace KalshiBot.Runtime

set_option autoImplicit false

def bootQuantumSeconds : ℤ := 60

/-- A host from one boot to the next. `wall` is what its wall clock shows at each moment, and
`running` how long it has been awake by then; moments are seconds since the epoch. -/
structure Boot where
  host : String
  bootedAt : ℚ
  wall : ℚ → ℚ
  running : ℚ → ℚ
  running_bootedAt : running bootedAt = 0
  running_mono : Monotone running
  running_slow : ∀ first last, first ≤ last → running last - running first ≤ last - first

namespace Boot

def monotonicNs (boot : Boot) (moment : ℚ) : ℤ := ⌊boot.running moment * 10 ^ 9⌋

/-- Wall clock minus uptime, quantized. -/
def bootEpochSeconds (boot : Boot) (moment : ℚ) : ℤ :=
  ⌊(boot.wall moment - boot.running moment) / bootQuantumSeconds⌋ * bootQuantumSeconds

def clockDomain (boot : Boot) (moment : ℚ) : String :=
  boot.host ++ ":" ++ toString (boot.bootEpochSeconds moment)

/-- The wall clock is never off by more than this. -/
def WallWithin (boot : Boot) (error : ℚ) : Prop :=
  ∀ moment, |boot.wall moment - moment| ≤ error

variable {boot other : Boot} {moment later error : ℚ}

theorem no_colon_digits (n : ℕ) : ':' ∉ n.repr.toList := by
  rw [Nat.toList_repr]
  intro hColon
  have hDigit := Nat.isDigit_of_mem_toDigits (by decide) (by decide) hColon
  revert hDigit
  decide

theorem no_colon_toString (n : ℤ) : ':' ∉ (toString n).toList := by
  rw [Int.toString_eq_repr, Int.repr_eq_if]
  split
  · exact no_colon_digits _
  · rw [String.toList_append, List.mem_append, not_or]
    exact ⟨by decide, no_colon_digits _⟩

/-- What is behind the last of the separators is read off from the end. -/
theorem eq_of_last_separator {α : Type} {separator : α} {front front' back back' : List α}
    (hBack : separator ∉ back) (hBack' : separator ∉ back')
    (h : front ++ separator :: back = front' ++ separator :: back') :
    front = front' ∧ back = back' := by
  obtain ⟨between, rfl, hRest⟩ | ⟨between, rfl, hRest⟩ := List.append_eq_append_iff.mp h
  · cases between with
    | nil => exact ⟨(List.append_nil _).symm, (List.cons.inj hRest).2⟩
    | cons c between =>
      rw [(List.cons.inj hRest).2] at hBack
      exact absurd (List.mem_append_right between List.mem_cons_self) hBack
  · cases between with
    | nil => exact ⟨List.append_nil _, (List.cons.inj hRest).2.symm⟩
    | cons c between =>
      rw [(List.cons.inj hRest).2] at hBack'
      exact absurd (List.mem_append_right between List.mem_cons_self) hBack'

theorem clockDomain_eq_iff : boot.clockDomain moment = other.clockDomain later ↔
    boot.host = other.host ∧ boot.bootEpochSeconds moment = other.bootEpochSeconds later := by
  constructor
  · intro h
    have hText := congrArg String.toList h
    rw [clockDomain, clockDomain, String.append_assoc, String.append_assoc, String.toList_append,
      String.toList_append, String.toList_append, String.toList_append] at hText
    obtain ⟨hHost, hEpoch⟩ := eq_of_last_separator (no_colon_toString _) (no_colon_toString _)
      hText
    refine ⟨String.toList_injective hHost, ?_⟩
    have hRepr := String.toList_injective hEpoch
    rw [Int.toString_eq_repr, Int.toString_eq_repr] at hRepr
    exact Int.repr_injective hRepr
  · rintro ⟨hHost, hEpoch⟩
    rw [clockDomain, clockDomain, hHost, hEpoch]

theorem clockDomain_ne_empty : boot.clockDomain moment ≠ "" := by
  intro hEmpty
  have hLength := congrArg String.length hEmpty
  rw [clockDomain, String.length_append, String.length_append] at hLength
  have hColon : (":" : String).length = 1 := by decide
  rw [hColon] at hLength
  exact absurd hLength (by rw [String.length_empty]; omega)

/-- Equal domains come from one host, and from estimates of its boot less than a minute apart. -/
theorem estimates_near (h : boot.clockDomain moment = other.clockDomain later) :
    boot.host = other.host ∧
      |(boot.wall moment - boot.running moment) - (other.wall later - other.running later)| < 60 := by
  obtain ⟨hHost, hEpoch⟩ := clockDomain_eq_iff.mp h
  refine ⟨hHost, ?_⟩
  have hBucket := Int.abs_sub_lt_one_of_floor_eq_floor
    (mul_right_cancel₀ (by decide : bootQuantumSeconds ≠ 0) hEpoch)
  have hQuantum : (bootQuantumSeconds : ℚ) = 60 := rfl
  have hPositive : (0 : ℚ) < 60 := by norm_num
  rwa [hQuantum, ← sub_div, abs_div, abs_of_pos hPositive, div_lt_one hPositive] at hBucket

/-- Two readings of one counter are as far apart as the host was awake between, to the
nanosecond. -/
theorem abs_span_lt (boot : Boot) (first last : ℚ) :
    |((boot.monotonicNs last : ℚ) - boot.monotonicNs first) / 1000000 -
      (boot.running last - boot.running first) * 1000| < 1 / 1000000 := by
  have hReading : ∀ moment, (boot.monotonicNs moment : ℚ) ≤ boot.running moment * 1000000000 ∧
      boot.running moment * 1000000000 < boot.monotonicNs moment + 1 := by
    intro moment
    have hScale : (10 : ℚ) ^ 9 = 1000000000 := by norm_num
    rw [monotonicNs, hScale]
    exact ⟨Int.floor_le _, Int.lt_floor_add_one _⟩
  obtain ⟨hFirst, hFirst'⟩ := hReading first
  obtain ⟨hLast, hLast'⟩ := hReading last
  rw [abs_lt]
  constructor <;> linarith

end Boot

variable {boots : Set Boot} {boot other : Boot} {moment later error : ℚ}

/-- The host has been booted this time, and not yet another time. -/
structure Boot.Up (boots : Set Boot) (boot : Boot) (moment : ℚ) : Prop where
  since : boot.bootedAt ≤ moment
  until_next : ∀ other ∈ boots, boot.host = other.host → boot.bootedAt < other.bootedAt →
    moment ≤ other.bootedAt

/-- Every wall clock is nearly right, and a host is awake for longer than that and a minute before
it is booted another time. -/
structure BootsApart (boots : Set Boot) (error : ℚ) : Prop where
  wall : ∀ boot ∈ boots, boot.WallWithin error
  apart : ∀ boot ∈ boots, ∀ other ∈ boots, boot.host = other.host → boot ≠ other →
    boot.bootedAt ≤ other.bootedAt → 60 + 2 * error ≤ boot.running other.bootedAt

/-- However long it has slept, an earlier boot is not taken for a later one. -/
theorem BootsApart.not_near (h : BootsApart boots error) (hBoot : boot ∈ boots)
    (hOther : other ∈ boots) (hHost : boot.host = other.host) (hDifferent : boot ≠ other)
    (hOrder : boot.bootedAt ≤ other.bootedAt) (hUp : boot.Up boots moment)
    (hOtherUp : other.Up boots later) :
    ¬|(boot.wall moment - boot.running moment) - (other.wall later - other.running later)| < 60 := by
  have hAwake := h.apart boot hBoot other hOther hHost hDifferent hOrder
  have hHere := abs_le.mp (h.wall boot hBoot moment)
  have hThere := abs_le.mp (h.wall other hOther later)
  have hEarlier : boot.bootedAt < other.bootedAt := by
    refine lt_of_le_of_ne hOrder fun hSame => ?_
    rw [← hSame, boot.running_bootedAt] at hAwake
    linarith
  -- The estimate of the first boot ends where it has been awake for longer than a minute.
  have hFirst := boot.running_slow moment other.bootedAt
    (hUp.until_next other hOther hHost hEarlier)
  have hSecond := other.running_slow other.bootedAt later hOtherUp.since
  rw [other.running_bootedAt] at hSecond
  rw [not_lt, le_abs]
  right
  linarith

theorem BootsApart.eq_of_clockDomain (h : BootsApart boots error) (hBoot : boot ∈ boots)
    (hOther : other ∈ boots) (hUp : boot.Up boots moment) (hOtherUp : other.Up boots later)
    (hDomain : boot.clockDomain moment = other.clockDomain later) : boot = other := by
  obtain ⟨hHost, hNear⟩ := Boot.estimates_near hDomain
  by_contra hDifferent
  obtain hOrder | hOrder := le_total boot.bootedAt other.bootedAt
  · exact h.not_near hBoot hOther hHost hDifferent hOrder hUp hOtherUp hNear
  · rw [abs_sub_comm] at hNear
    exact h.not_near hOther hBoot hHost.symm (Ne.symm hDifferent) hOrder hOtherUp hUp hNear

end KalshiBot.Runtime
