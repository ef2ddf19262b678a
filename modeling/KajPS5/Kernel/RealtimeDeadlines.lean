/-
# Deadlines of the realtime clock

`RealtimeDeadlineToMonotonic` works on 64-bit words, signed and unsigned. Here it is
translated once more with every operation checked: one whose exact result is not a word
of its type has no value. The conversion always has a value, the one of the unchecked
model, and this is the exact sum of the monotonic reading and the time that is left,
up to the largest word.
-/

import KajPS5.Kernel.PthreadInvariant

namespace KajPS5.Kernel

open Option
open Memory (uint64Max)

/-- The result of an operation on signed words, if it is a signed word. -/
def signedWord (value : ℤ) : Option ℤ :=
  if -2 ^ 63 ≤ value ∧ value < 2 ^ 63 then some value else none

/-- The result of an operation on unsigned words, if it is an unsigned word. -/
def unsignedWord (value : ℤ) : Option ℤ := if 0 ≤ value ∧ value < 2 ^ 64 then some value else none

/-- The saturated sum of two words. -/
def saturatingAdd (left right : ℤ) : Option ℤ := do
  let room ← unsignedWord (uint64Max - left)
  if room < right then some uint64Max else unsignedWord (left + right)

namespace KernelTimespec

variable (now deadline : KernelTimespec)

/-- The time as a number. -/
def totalNanoseconds (time : KernelTimespec) : ℤ :=
  time.seconds * nanosecondsPerSecond + time.nanoseconds

/-- The seconds of the time that is left. -/
def secondsDelta : Option ℤ :=
  if 0 ≤ now.seconds then do unsignedWord (← signedWord (deadline.seconds - now.seconds))
  else do
    let next ← signedWord (now.seconds + 1)
    let opposite ← unsignedWord (← signedWord (-next))
    let negativeNow ← unsignedWord (opposite + 1)
    let room ← unsignedWord (uint64Max - negativeNow)
    if room < deadline.seconds then some uint64Max
    else unsignedWord (deadline.seconds + negativeNow)

/-- Its seconds and nanoseconds. -/
def delta : Option (ℤ × ℤ) := do
  let secondsDelta ← secondsDelta now deadline
  if deadline.nanoseconds < now.nanoseconds then do
    let secondsDelta ← unsignedWord (secondsDelta - 1)
    let behind ← unsignedWord (← signedWord (now.nanoseconds - deadline.nanoseconds))
    let nanosecondsDelta ← unsignedWord (nanosecondsPerSecond - behind)
    some (secondsDelta, nanosecondsDelta)
  else do
    let nanosecondsDelta ← unsignedWord (← signedWord (deadline.nanoseconds - now.nanoseconds))
    some (secondsDelta, nanosecondsDelta)

/-- `RealtimeDeadlineToMonotonic` after its checks, on the readings of the two clocks. -/
def toMonotonic (monotonicNow : ℤ) : Option ℤ :=
  if deadline.seconds < now.seconds ∨
      deadline.seconds = now.seconds ∧ deadline.nanoseconds ≤ now.nanoseconds then
    some monotonicNow
  else do
    let (secondsDelta, nanosecondsDelta) ← delta now deadline
    let remaining ← if secondsDelta ≤ uint64Max / nanosecondsPerSecond then do
        saturatingAdd (← unsignedWord (secondsDelta * nanosecondsPerSecond)) nanosecondsDelta
      else some uint64Max
    saturatingAdd monotonicNow remaining

end KernelTimespec

section

variable {value left right : ℤ}

theorem signedWord_of_mem (hlo : -2 ^ 63 ≤ value) (hhi : value < 2 ^ 63) :
    signedWord value = some value := if_pos ⟨hlo, hhi⟩

theorem unsignedWord_of_mem (hlo : 0 ≤ value) (hhi : value ≤ uint64Max) :
    unsignedWord value = some value := by
  refine if_pos ⟨hlo, ?_⟩
  rw [uint64Max] at hhi
  omega

theorem saturatingAdd_eq (hlo : 0 ≤ left) (hhi : left ≤ uint64Max) (hright : 0 ≤ right) :
    saturatingAdd left right = some (min (uint64Max : ℤ) (left + right)) := by
  rw [saturatingAdd, unsignedWord_of_mem (by omega) (by omega), bind_eq_bind,
    bind_some]
  split
  next h => rw [min_eq_left (by omega)]
  next h => rw [unsignedWord_of_mem (by omega) (by omega), min_eq_right (by omega)]

end

namespace KernelTimespec

variable {now deadline : KernelTimespec}

theorem secondsDelta_eq (hnow : -2 ^ 63 ≤ now.seconds) (hle : now.seconds ≤ deadline.seconds)
    (hlo : 0 ≤ deadline.seconds) (hhi : deadline.seconds < 2 ^ 63) :
    secondsDelta now deadline = some (deadline.seconds - now.seconds) := by
  have hmax : (uint64Max : ℤ) = 2 ^ 64 - 1 := rfl
  rw [secondsDelta]
  split
  next h =>
    rw [signedWord_of_mem (by omega) (by omega), bind_eq_bind, bind_some,
      unsignedWord_of_mem (by omega) (by omega)]
  next h =>
    simp (disch := omega) only [signedWord_of_mem, unsignedWord_of_mem, bind_eq_bind,
      bind_some, if_neg]
    congr 1
    omega

variable (hlo : 0 ≤ now.nanoseconds) (hhi : now.nanoseconds < nanosecondsPerSecond)
  (hvalid : deadline.Valid) (hnow : -2 ^ 63 ≤ now.seconds) (hdeadline : deadline.seconds < 2 ^ 63)

include hlo hhi hvalid

/-- The test for a deadline that has passed compares the two times. -/
theorem passed_iff : deadline.seconds < now.seconds ∨ deadline.seconds = now.seconds ∧
        deadline.nanoseconds ≤ now.nanoseconds ↔
      deadline.totalNanoseconds ≤ now.totalNanoseconds := by
  obtain ⟨hseconds, hnanoseconds, hbound⟩ := hvalid
  simp only [totalNanoseconds, nanosecondsPerSecond] at *
  omega

include hnow hdeadline

/-- The seconds and nanoseconds make up the time that is left. -/
theorem delta_eq (hlt : now.totalNanoseconds < deadline.totalNanoseconds) :
    ∃ seconds nanoseconds, delta now deadline = some (seconds, nanoseconds) ∧
      0 ≤ seconds ∧ 0 ≤ nanoseconds ∧ nanoseconds < nanosecondsPerSecond ∧
      seconds * nanosecondsPerSecond + nanoseconds =
        deadline.totalNanoseconds - now.totalNanoseconds := by
  obtain ⟨hseconds, hnanoseconds, hbound⟩ := hvalid
  have hmax : (uint64Max : ℤ) = 2 ^ 64 - 1 := rfl
  have hle : now.seconds ≤ deadline.seconds := by
    simp only [totalNanoseconds, nanosecondsPerSecond] at hlt hhi hbound
    omega
  rw [delta, secondsDelta_eq hnow hle hseconds hdeadline]
  simp only [totalNanoseconds, nanosecondsPerSecond, bind_eq_bind, bind_some] at *
  split
  all_goals
    simp (disch := omega) only [signedWord_of_mem, unsignedWord_of_mem, bind_some]
    exact ⟨_, _, rfl, by omega, by omega, by omega, by omega⟩

/-- No operation of the conversion leaves its words, and the result is exact. -/
theorem toMonotonic_eq {monotonicNow : ℤ} (hmonotonic : 0 ≤ monotonicNow)
    (hword : monotonicNow ≤ uint64Max) :
    toMonotonic now deadline monotonicNow = some (min (uint64Max : ℤ)
      (monotonicNow + max 0 (deadline.totalNanoseconds - now.totalNanoseconds))) := by
  simp only [toMonotonic, passed_iff hlo hhi hvalid]
  split
  next h =>
    congr 1
    omega
  next h =>
    rw [not_le] at h
    obtain ⟨seconds, nanoseconds, hdelta, hseconds, hnanoseconds, hbound, hsum⟩ :=
      delta_eq hlo hhi hvalid hnow hdeadline h
    rw [hdelta, ← hsum]
    simp only [bind_eq_bind, bind_some]
    by_cases hsmall : seconds ≤ uint64Max / nanosecondsPerSecond
    · rw [if_pos hsmall]
      simp only [nanosecondsPerSecond] at *
      rw [unsignedWord_of_mem (by omega) (by omega), bind_some,
        saturatingAdd_eq (by omega) (by omega) hnanoseconds, bind_some,
        saturatingAdd_eq hmonotonic hword (by omega)]
      congr 1
      omega
    · rw [if_neg hsmall, saturatingAdd_eq hmonotonic hword (by omega)]
      simp only [nanosecondsPerSecond] at *
      congr 1
      omega

/-- The unchecked model saturates at the same time. -/
theorem remainingNanoseconds_eq (hlt : now.totalNanoseconds < deadline.totalNanoseconds) :
    (PthreadService.remainingNanoseconds now deadline : ℤ) = min (uint64Max : ℤ)
      (deadline.totalNanoseconds - now.totalNanoseconds) := by
  obtain ⟨hseconds, hnanoseconds, hbound⟩ := hvalid
  have hdelta : (if 0 ≤ now.seconds then (deadline.seconds - now.seconds).toNat
      else if uint64Max - ((-(now.seconds + 1)).toNat + 1) < deadline.seconds.toNat then uint64Max
      else deadline.seconds.toNat + ((-(now.seconds + 1)).toNat + 1)) =
        (deadline.seconds - now.seconds).toNat := by
    have hmax : uint64Max = 2 ^ 64 - 1 := rfl
    split
    · rfl
    · rw [if_neg (by omega)]
      omega
  simp only [PthreadService.remainingNanoseconds, hdelta]
  simp only [totalNanoseconds, nanosecondsPerSecond, uint64Max] at *
  by_cases hborrow : deadline.nanoseconds < now.nanoseconds
  all_goals
    split_ifs <;> omega

end KernelTimespec

open KernelTimespec in
/-- For all readings of the clocks, the deadline is the monotonic reading and the time that is
left of the realtime deadline, up to the largest word. -/
theorem realtimeDeadlineToMonotonic_exact (clock : SteadyClock) (s : PthreadService)
    (deadline : KernelTimespec) (hvalid : deadline.Valid) (hdeadline : deadline.seconds < 2 ^ 63)
    (now : KernelTimespec) (hnow : now = .ofNanoseconds (clock.realtimeNanoseconds s.reads))
    (hseconds : -2 ^ 63 ≤ now.seconds) (hword : clock.monotonicNanoseconds s.reads ≤ uint64Max) :
    ∃ converted : ℕ, (s.realtimeDeadlineToMonotonic clock deadline).1 = some converted ∧
      now.toMonotonic deadline (clock.monotonicNanoseconds s.reads) = some (converted : ℤ) ∧
      (converted : ℤ) = min (uint64Max : ℤ) (clock.monotonicNanoseconds s.reads +
        max 0 (deadline.totalNanoseconds - clock.realtimeNanoseconds s.reads)) := by
  have hlo : 0 ≤ now.nanoseconds := by
    rw [hnow]
    exact Int.emod_nonneg _ (by decide)
  have hhi : now.nanoseconds < nanosecondsPerSecond := by
    rw [hnow]
    exact Int.emod_lt_of_pos _ (by decide)
  have htotal : now.totalNanoseconds = clock.realtimeNanoseconds s.reads := by
    rw [hnow]
    exact Int.ediv_mul_add_emod _ _
  have hmonotonic := toMonotonic_eq hlo hhi hvalid hseconds hdeadline
    (Int.natCast_nonneg (clock.monotonicNanoseconds s.reads)) (Int.ofNat_le.mpr hword)
  obtain ⟨converted, hconverted, hvalue⟩ : ∃ converted : ℕ,
      (s.realtimeDeadlineToMonotonic clock deadline).1 = some converted ∧
      (converted : ℤ) = min (uint64Max : ℤ) (clock.monotonicNanoseconds s.reads +
        max 0 (deadline.totalNanoseconds - now.totalNanoseconds)) := by
    rw [PthreadService.realtimeDeadlineToMonotonic, if_neg (by
      obtain ⟨_, _, _⟩ := hvalid
      omega), ← hnow]
    have hread : (s.monotonicNanoseconds clock).1 = clock.monotonicNanoseconds s.reads := rfl
    simp only [passed_iff hlo hhi hvalid]
    split
    next h => exact ⟨_, rfl, by omega⟩
    next h =>
      have hremaining := remainingNanoseconds_eq hlo hhi hvalid hseconds hdeadline (not_le.mp h)
      refine ⟨_, rfl, ?_⟩
      rw [Nat.cast_ite]
      split <;> omega
  rw [← htotal]
  exact ⟨converted, hconverted, by rw [hmonotonic, hvalue], hvalue⟩

/-- A second and a half before the epoch, the deadline at the epoch is that much later. -/
theorem deadline_before_epoch : ∃ converted : ℕ, (PthreadService.realtimeDeadlineToMonotonic
        ⟨fun _ => 7, monotone_const, fun _ => -1500000000⟩ {} {}).1 = some converted ∧
      KernelTimespec.toMonotonic ⟨-2, 500000000⟩ {} 7 = some (converted : ℤ) ∧
      (converted : ℤ) = 1500000007 := by
  obtain ⟨converted, hconverted, hexact, hvalue⟩ := realtimeDeadlineToMonotonic_exact
    ⟨fun _ => 7, monotone_const, fun _ => -1500000000⟩ {} {} ⟨by decide, by decide, by decide⟩
    (by decide) ⟨-2, 500000000⟩ rfl (by decide) (by decide)
  exact ⟨converted, hconverted, hexact, hvalue⟩

end KajPS5.Kernel
