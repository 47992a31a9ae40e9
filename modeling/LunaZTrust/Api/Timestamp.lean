import LunaZTrust.Api.MobileHandler
import LunaZTrust.Auth.Pipeline

/-!
# Two checks of a timestamp

`ValidateTimestampAt` of `proxy/internal/auth/pipeline.go` takes the distance of a timestamp from
the clock and compares it with a window.  `verifyDeviceSignature` of
`proxy/internal/api/device_auth.go` compares the timestamp with the two ends of a window of 30
seconds.  Both compute in `int64`, and the timestamp can be any of its values.

The distance of two `int64` need not be one.  `validateTimestampAt_eq_ok_iff_natAbs` says which
timestamps are taken for near ones by mistake: the one at distance `2 ^ 63`, whose negation
overflows, and those whose distance is near `2 ^ 64`, which there are only for clock readings near
the ends of `int64`.
-/

namespace LunaZTrust.Api

open LunaZTrust.Go LunaZTrust.Auth

variable {ts : Int} {now : Time} {windowSec : Int}

/-- What `verifyDeviceSignature` finds in range, unless an end of the range overflows. -/
theorem verifyDeviceSignature_inRange_iff {crypto : Crypto} {pub payload : Bytes}
    {sigHex : GoString} (hnow : -2 ^ 63 + 30 ≤ Time.unix now ∧ Time.unix now < 2 ^ 63 - 30) :
    verifyDeviceSignature crypto pub payload sigHex now ts ≠ .error .timestampOutOfRange ↔
      (Time.unix now - ts).natAbs ≤ 30 := by
  rw [verifyDeviceSignature, wrap64_of_small (by omega) (by omega),
    wrap64_of_small (by omega) (by omega)]
  split
  · next hout =>
      refine iff_of_false (fun h ↦ h rfl) ?_
      omega
  · next hin =>
      refine iff_of_true ?_ (by omega)
      split
      · exact fun h ↦ by cases h
      · split
        · exact fun h ↦ by cases h
        · split <;> exact fun h ↦ by cases h

/-- **Which timestamps are judged right.**  `ValidateTimestampAt` is exact for all but those at
distance `2 ^ 63` and those whose distance is near `2 ^ 64`.  With its window of 30 seconds it
agrees with `verifyDeviceSignature`, where the range of that does not overflow, on all
but the one at distance `2 ^ 63`. -/
theorem timestamp_checks_exact_iff (hts : IsInt64 ts) (hnow : IsInt64 (Time.unix now))
    (hpos : 0 ≤ windowSec) (hwindow : IsInt64 windowSec) :
    ((validateTimestampAt ts now windowSec = .ok () ↔
          (Time.unix now - ts).natAbs ≤ windowSec) ↔
        (Time.unix now - ts).natAbs ≠ 2 ^ 63 ∧ ((Time.unix now - ts).natAbs ≤ windowSec ∨
          (Time.unix now - ts).natAbs < 2 ^ 64 - windowSec)) ∧
      (-2 ^ 63 + 30 ≤ Time.unix now ∧ Time.unix now < 2 ^ 63 - 30 →
        ∀ (crypto : Crypto) (pub payload : Bytes) (sigHex : GoString),
          (validateTimestampAt ts now timestampWindowSec = .ok () ↔
              verifyDeviceSignature crypto pub payload sigHex now ts ≠
                .error .timestampOutOfRange) ↔
            (Time.unix now - ts).natAbs ≠ 2 ^ 63) := by
  constructor
  · rw [validateTimestampAt_eq_ok_iff_natAbs hts hnow hpos hwindow]
    rw [IsInt64] at hwindow
    omega
  · intro hmargin crypto pub payload sigHex
    rw [validateTimestampAt_eq_ok_iff_natAbs hts hnow (by decide) (by decide),
      verifyDeviceSignature_inRange_iff hmargin]
    rw [IsInt64] at hts
    rw [timestampWindowSec]
    omega

/-- A timestamp ten seconds old. -/
theorem timestamp_checks_exact_1000 :
    validateTimestampAt 1000 (1010 * Time.second) 30 = .ok () ∧
      verifyDeviceSignature .plain [] [] [] (1010 * Time.second) 1000 ≠
        .error .timestampOutOfRange := by
  have h := timestamp_checks_exact_iff (by decide : IsInt64 1000)
    (by decide : IsInt64 (Time.unix (1010 * Time.second))) (by decide : (0 : Int) ≤ 30) (by decide)
  have hok := (h.1.mpr (by decide)).mpr (by decide)
  exact ⟨hok, ((h.2 (by decide) .plain [] [] []).mpr (by decide)).mp hok⟩

/-- In November 2023, a timestamp from long before the beginning of time. -/
theorem timestamp_accepted_at_distance :
    IsInt64 (1700000000 - 2 ^ 63) ∧
      validateTimestampAt (1700000000 - 2 ^ 63) (1700000000 * Time.second) timestampWindowSec =
        .ok () ∧
      (Time.unix (1700000000 * Time.second) - (1700000000 - 2 ^ 63)).natAbs = 2 ^ 63 ∧
      verifyDeviceSignature .plain [] [] [] (1700000000 * Time.second) (1700000000 - 2 ^ 63) =
        .error .timestampOutOfRange := by
  decide +kernel

end LunaZTrust.Api
