import Mathlib.Logic.Function.Iterate
import Mathlib.Tactic.NormNum

/-!
# The uptime counter

`OSUpdateUptime` of `OSTime.c`, which the clock task calls once a second, and for how long the
record it keeps is the time since the reset.
-/

namespace TivaAws.Clock

/-! ## Model -/

/-- `OSTime`. -/
structure OSTime where
  rtcSecond : UInt8
  rtcMinute : UInt8
  rtcHour : UInt8
  deriving DecidableEq, Repr

/-- `OSDate`. -/
structure OSDate where
  rtcDay : UInt8
  rtcMonth : UInt8
  rtcYear : UInt16
  deriving DecidableEq, Repr

/-- `Hora` and `Data`. -/
structure UptimeRecord where
  hora : OSTime
  data : OSDate
  deriving DecidableEq, Repr

/-- `OSResetTime`. -/
def osResetTime (record : UptimeRecord) : UptimeRecord :=
  { record with hora := { rtcSecond := 0, rtcMinute := 0, rtcHour := 0 } }

/-- `OSResetDate`. -/
def osResetDate (record : UptimeRecord) : UptimeRecord :=
  { record with data := { rtcDay := 0, rtcMonth := 0, rtcYear := 0 } }

/-- `OSUpdateUptime`. -/
def osUpdateUptime (record : UptimeRecord) : UptimeRecord :=
  let hora := { record.hora with rtcSecond := record.hora.rtcSecond + 1 }
  if hora.rtcSecond = 60 then
    let hora := { hora with rtcSecond := 0, rtcMinute := hora.rtcMinute + 1 }
    if hora.rtcMinute = 60 then
      let hora := { hora with rtcMinute := 0, rtcHour := hora.rtcHour + 1 }
      if hora.rtcHour = 24 then
        -- The day is not carried into the month.
        { hora := { hora with rtcHour := 0 }
          data := { record.data with rtcDay := record.data.rtcDay + 1 } }
      else { record with hora }
    else { record with hora }
  else { record with hora }

/-- The record after the resets and a number of calls of `OSUpdateUptime`. -/
def uptimeAfter (record : UptimeRecord) (calls : ℕ) : UptimeRecord :=
  osUpdateUptime^[calls] (osResetDate (osResetTime record))

/-- The seconds a record stands for. -/
def UptimeRecord.seconds (record : UptimeRecord) : ℕ :=
  record.data.rtcDay.toNat * 86400 + record.hora.rtcHour.toNat * 3600 +
    record.hora.rtcMinute.toNat * 60 + record.hora.rtcSecond.toNat

/-- The fields of the time of day are in their ranges. -/
structure UptimeRecord.InRange (record : UptimeRecord) : Prop where
  second : record.hora.rtcSecond.toNat < 60
  minute : record.hora.rtcMinute.toNat < 60
  hour : record.hora.rtcHour.toNat < 24

/-- The fields are the digits of a number of seconds, the day modulo its width. -/
structure UptimeRecord.Counts (record : UptimeRecord) (n : ℕ) : Prop where
  second : record.hora.rtcSecond.toNat = n % 60
  minute : record.hora.rtcMinute.toNat = n / 60 % 60
  hour : record.hora.rtcHour.toNat = n / 3600 % 24
  day : record.data.rtcDay.toNat = n / 86400 % 256

/-! ## One call -/

/-- A field below 255 does not wrap around when it is incremented. -/
theorem toNat_succ {field : UInt8} (h : field.toNat < 255) :
    (field + 1).toNat = field.toNat + 1 := by
  rw [UInt8.toNat_add]
  exact Nat.mod_eq_of_lt (by show field.toNat + 1 < 256; omega)

/-- One call counts one second on. -/
theorem UptimeRecord.Counts.step {record : UptimeRecord} {n : ℕ} (h : record.Counts n) :
    (osUpdateUptime record).Counts (n + 1) := by
  obtain ⟨hsecond, hminute, hhour, hday⟩ := h
  have hsecond_succ : (record.hora.rtcSecond + 1).toNat = n % 60 + 1 :=
    hsecond ▸ toNat_succ (by omega)
  have hminute_succ : (record.hora.rtcMinute + 1).toNat = n / 60 % 60 + 1 :=
    hminute ▸ toNat_succ (by omega)
  have hhour_succ : (record.hora.rtcHour + 1).toNat = n / 3600 % 24 + 1 :=
    hhour ▸ toNat_succ (by omega)
  -- The day is the only field that wraps around at its width.
  have hday_succ : (record.data.rtcDay + 1).toNat = (n / 86400 % 256 + 1) % 256 := by
    rw [UInt8.toNat_add, hday]
    rfl
  unfold osUpdateUptime
  simp only [← UInt8.toNat_inj, hsecond_succ, hminute_succ, hhour_succ]
  split_ifs with hcarry_second hcarry_minute hcarry_hour
  · have hn : n % 60 = 59 ∧ n / 60 % 60 = 59 ∧ n / 3600 % 24 = 23 :=
      ⟨Nat.succ.inj hcarry_second, Nat.succ.inj hcarry_minute, Nat.succ.inj hcarry_hour⟩
    exact ⟨by show 0 = _; omega, by show 0 = _; omega, by show 0 = _; omega,
      hday_succ.trans (by omega)⟩
  · have hn : n % 60 = 59 ∧ n / 60 % 60 = 59 ∧ n / 3600 % 24 ≠ 23 :=
      ⟨Nat.succ.inj hcarry_second, Nat.succ.inj hcarry_minute, mt (congrArg Nat.succ) hcarry_hour⟩
    exact ⟨by show 0 = _; omega, by show 0 = _; omega, hhour_succ.trans (by omega),
      hday.trans (by omega)⟩
  · have hn : n % 60 = 59 ∧ n / 60 % 60 ≠ 59 :=
      ⟨Nat.succ.inj hcarry_second, mt (congrArg Nat.succ) hcarry_minute⟩
    exact ⟨by show 0 = _; omega, hminute_succ.trans (by omega), hhour.trans (by omega),
      hday.trans (by omega)⟩
  · have hn : n % 60 ≠ 59 := mt (congrArg Nat.succ) hcarry_second
    exact ⟨hsecond_succ.trans (by omega), hminute.trans (by omega), hhour.trans (by omega),
      hday.trans (by omega)⟩

/-! ## Every number of calls -/

/-- The resets leave the record of no seconds. -/
theorem reset_counts (record : UptimeRecord) :
    (osResetDate (osResetTime record)).Counts 0 := ⟨rfl, rfl, rfl, rfl⟩

/-- A call is the last of a number of calls. -/
theorem uptime_after_succ (record : UptimeRecord) (n : ℕ) :
    uptimeAfter record (n + 1) = osUpdateUptime (uptimeAfter record n) :=
  Function.iterate_succ_apply' ..

/-- The fields are the digits of the number of calls, the day modulo its width. -/
theorem uptime_counts (record : UptimeRecord) (n : ℕ) : (uptimeAfter record n).Counts n := by
  induction n with
  | zero => exact reset_counts record
  | succ n ih =>
      rw [uptime_after_succ]
      exact ih.step

/-- The time of day is always one. -/
theorem UptimeRecord.Counts.inRange {record : UptimeRecord} {n : ℕ} (h : record.Counts n) :
    record.InRange := by
  obtain ⟨hsecond, hminute, hhour, -⟩ := h
  exact ⟨by omega, by omega, by omega⟩

/-- The record stands for the number of calls modulo 256 days. -/
theorem UptimeRecord.Counts.seconds {record : UptimeRecord} {n : ℕ} (h : record.Counts n) :
    record.seconds = n % (256 * 86400) := by
  obtain ⟨hsecond, hminute, hhour, hday⟩ := h
  unfold UptimeRecord.seconds
  rw [hsecond, hminute, hhour, hday]
  omega

/-- In a run of `n` calls the record is the number of calls so far after each of them, and it does
not go backwards, exactly if the run is shorter than 256 days. -/
theorem uptime_exact_iff (record : UptimeRecord) (n : ℕ) :
    (∀ k ≤ n, (uptimeAfter record k).seconds = k ∧ (uptimeAfter record k).InRange ∧
      ∀ j ≤ k, (uptimeAfter record j).seconds ≤ (uptimeAfter record k).seconds) ↔
    n < 256 * 86400 := by
  constructor
  · intro h
    have hn : n % (256 * 86400) = n :=
      (uptime_counts record n).seconds.symm.trans (h n le_rfl).1
    exact hn ▸ Nat.mod_lt n (by omega)
  · intro hn k hk
    have hexact : ∀ j ≤ k, (uptimeAfter record j).seconds = j := by
      intro j hj
      rw [(uptime_counts record j).seconds]
      exact Nat.mod_eq_of_lt (by omega)
    refine ⟨hexact k le_rfl, (uptime_counts record k).inRange, ?_⟩
    intro j hj
    rw [hexact j hj, hexact k le_rfl]
    exact hj

/-- After 256 days the record is that of the reset, a second after it was that of 256 days. -/
theorem uptime_wraps :
    (uptimeAfter ⟨⟨0, 0, 0⟩, ⟨0, 0, 0⟩⟩ (256 * 86400)).seconds ≠ 256 * 86400 ∧
      (uptimeAfter ⟨⟨0, 0, 0⟩, ⟨0, 0, 0⟩⟩ (256 * 86400)).seconds <
        (uptimeAfter ⟨⟨0, 0, 0⟩, ⟨0, 0, 0⟩⟩ (256 * 86400 - 1)).seconds := by
  rw [(uptime_counts _ _).seconds, (uptime_counts _ _).seconds]
  omega

end TivaAws.Clock
