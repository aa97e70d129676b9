import PushNotificationKafka.Format
import PushNotificationKafka.Time.Calendar

/-! Timestamps of ISO 8601 such as `2018-08-30T14:02:03+02:00`: a date and a time of day of
a zone, and the offset of the zone from UTC in minutes. -/
namespace Iso8601
open Bytes Json Calendar Format

theorem monthLength_le (year : Int) (month : Nat) : monthLength year month ≤ 31 := by
  unfold monthLength
  split
  · split <;> decide
  · decide
  · decide
  · decide
  · decide
  · decide

def dateOf : Nat × Nat × Nat → Option Date
  | (year, month, day) =>
    if valid : 0 < month ∧ month - 1 < 12 ∧ 0 < day ∧ day ≤ monthLength year (month - 1) then
      some ⟨year, month - 1, day, valid.2.1, valid.2.2.1, valid.2.2.2⟩
    else none

def date : Format Date :=
  ((number 4).pair (((number 2).after minus).pair ((number 2).after minus))).via
    (fun d => 0 ≤ d.year ∧ d.year < 10000) (fun d => (d.year.toNat, d.month + 1, d.day)) dateOf
    (by
      intro d fits
      have month := d.month_lt
      have day := Nat.le_trans d.day_le (monthLength_le d.year d.month)
      simp only [Format.pair, Format.after, number]
      omega)
    (by
      rintro ⟨year, month, day, month_lt, day_pos, day_le⟩ ⟨first, last⟩
      obtain ⟨year, rfl⟩ := Int.eq_ofNat_of_zero_le first
      simp only [dateOf, Int.toNat_natCast, Nat.add_sub_cancel]
      exact dif_pos ⟨Nat.succ_pos month, month_lt, day_pos, day_le⟩)

def clockOf : Nat × Nat × Nat → Option Clock
  | (hour, minute, second) =>
    if valid : hour < 24 ∧ minute < 60 ∧ second < 60 then
      some ⟨hour, minute, second, valid.1, valid.2.1, valid.2.2⟩
    else none

def clock : Format Clock :=
  ((number 2).pair (((number 2).after colon).pair ((number 2).after colon))).via
    (fun _ => True) (fun c => (c.hour, c.minute, c.second)) clockOf
    (by
      intro c _
      have hour := c.hour_lt
      have minute := c.minute_lt
      have second := c.second_lt
      simp only [Format.pair, Format.after, number]
      omega)
    (by
      rintro ⟨hour, minute, second, hour_lt, minute_lt, second_lt⟩ _
      exact dif_pos ⟨hour_lt, minute_lt, second_lt⟩)

def offsetOf : Bool × Nat × Nat → Option Int
  | (negative, hours, minutes) =>
    if hours < 24 ∧ minutes < 60 then
      some (if negative then -(60 * hours + minutes) else 60 * hours + minutes)
    else none

def offset : Format Int :=
  (sign.pair ((number 2).pair ((number 2).after colon))).via
    (fun n => -1440 < n ∧ n < 1440) (fun n => (decide (n < 0), n.natAbs / 60, n.natAbs % 60)) offsetOf
    (by
      intro n fits
      refine ⟨trivial, ?_⟩
      simp only [Format.pair, Format.after, number]
      omega)
    (by
      intro n fits
      have bounded : n.natAbs / 60 < 24 ∧ n.natAbs % 60 < 60 := by omega
      rw [offsetOf, if_pos bounded]
      by_cases negative : n < 0
      · simp only [negative, decide_true, if_true, Option.some.injEq]
        omega
      · simp only [negative, decide_false, Bool.false_eq_true, if_false, Option.some.injEq]
        omega)

structure Timestamp where
  shown : DateTime
  offset : Int

/-- The instant that is meant: the zone is ahead of UTC by its offset. -/
def Timestamp.instant (stamp : Timestamp) : Int := stamp.shown.instant - 60 * stamp.offset

def timestamp : Format Timestamp :=
  (date.pair ((clock.after (ascii 'T')).pair offset)).via
    (fun stamp => (0 ≤ stamp.shown.date.year ∧ stamp.shown.date.year < 10000) ∧
      -1440 < stamp.offset ∧ stamp.offset < 1440)
    (fun stamp => (stamp.shown.date, stamp.shown.clock, stamp.offset))
    (fun (date, clock, offset) => some ⟨⟨date, clock⟩, offset⟩)
    (fun _ fits => ⟨fits.1, trivial, fits.2⟩)
    (fun _ _ => rfl)

theorem timestamp_plain : AlwaysPlain timestamp := by
  have two := number_plain 2
  have minus : plainByte minus = true := by decide
  have colon : plainByte colon = true := by decide
  have date : AlwaysPlain date := ((number_plain 4).pair ((two.after minus).pair (two.after minus))).via
  have clock : AlwaysPlain clock := (two.pair ((two.after colon).pair (two.after colon))).via
  have offset : AlwaysPlain offset := (sign_plain.pair (two.pair (two.after colon))).via
  exact (date.pair ((clock.after (by decide)).pair offset)).via

/-- The instant that a text denotes, if it is a timestamp. -/
def denotes (text : Bytes) : Option Int := (timestamp.readAll text).map Timestamp.instant

theorem denotes_print (fits : timestamp.Fits stamp) : denotes (timestamp.print stamp) = some stamp.instant := by
  rw [denotes, timestamp.readAll_print fits, Option.map_some]

end Iso8601
