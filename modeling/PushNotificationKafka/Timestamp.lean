import PushNotificationKafka.Notification
import PushNotificationKafka.Time.Iso8601

/-! The date of a `MessageNew` event: which instant its timestamp denotes, and which it
is to denote. -/
namespace PushNotificationKafka
open Bytes Json Calendar Iso8601

/-- The fields of a `struct tm`: years since 1900, months from 0. -/
def tmOf (shown : DateTime) : Tm where
  year := shown.date.year - 1900
  mon := shown.date.month
  mday := shown.date.day
  hour := shown.clock.hour
  min := shown.clock.minute
  sec := shown.clock.second

/-- `gmtime` gives the date and the time of day in UTC. -/
def GivesUtc (gmtime : Int → Tm) : Prop := ∀ t, ∃ shown, gmtime t = tmOf shown ∧ shown.instant = t

/-- `iso8601_date_create_tm` prints the fields that it is given, and the offset. -/
def PrintsFields (iso8601DateCreateTm : Tm → Int → CStr) : Prop :=
  ∀ stamp, timestamp.Fits stamp → iso8601DateCreateTm (tmOf stamp.shown) stamp.offset = timestamp.print stamp

/-- The rendered event has the member `date` with this text right after its first members. -/
def ShowsDate (dovecot : Dovecot) (dtxn : DriverTxn) (msg : TxnMsg) (data : MessagenewData) (stamp : CStr) : Prop :=
  quote ∉ stamp ∧ ∃ rest, writeEventMessagenew dovecot dtxn msg data =
    writeMsgPrefix dovecot dtxn messagenewName msg ++ (lit ",\"date\":\"" ++ (stamp ++ quote :: rest))

theorem ShowsDate.unique (first : ShowsDate dovecot dtxn msg data stamp)
    (second : ShowsDate dovecot dtxn msg data stamp') : stamp = stamp' := by
  obtain ⟨plain, rest, split⟩ := first
  obtain ⟨plain', rest', split'⟩ := second
  have same := List.append_cancel_left (List.append_cancel_left (split.symm.trans split'))
  have cut {text : CStr} (rest : CStr) (plain : quote ∉ text) :
      (text ++ quote :: rest).takeWhile (· != quote) = text := by
    have inside : ∀ c ∈ text, (c != quote) = true := by
      intro c member
      rw [bne_iff_ne]
      rintro rfl
      exact plain member
    exact (span_run inside (by simp)).1
  rw [← cut rest plain, same, cut rest' plain']

/-- A date that is known is printed first, as `iso8601_date_create_tm` gives it. -/
theorem messagenew_shows (dtxn : DriverTxn) (msg : TxnMsg) (known : data.date ≠ -1)
    (plain : Plain (dovecot.iso8601DateCreateTm (dovecot.gmtime data.date) data.dateTz)) :
    ShowsDate dovecot dtxn msg data (dovecot.iso8601DateCreateTm (dovecot.gmtime data.date) data.dateTz) := by
  have noQuote : quote ∉ dovecot.iso8601DateCreateTm (dovecot.gmtime data.date) data.dateTz := by
    intro member
    exact absurd (plain quote member) (by decide)
  refine ⟨noQuote, ?_⟩
  obtain ⟨rest, texts⟩ := writeTexts_extends dovecot data.from_ data.snippet data.subject data.to_
    (writeMsgPrefix dovecot dtxn messagenewName msg ++ (lit ",\"date\":\"" ++
      dovecot.iso8601DateCreateTm (dovecot.gmtime data.date) data.dateTz ++ lit "\""))
  refine ⟨rest, ?_⟩
  have close : lit "\"" = [quote] := rfl
  simp only [writeEventMessagenew, ne_eq, known, not_false_eq_true, if_true]
  rw [← texts]
  simp only [close, List.append_assoc, List.cons_append, List.nil_append]

/-- The timestamp of a date shows the fields of UTC as those of the zone of the sender, so
that it denotes an instant that is earlier by the offset of the zone. -/
theorem messagenew_denotes (utc : GivesUtc dovecot.gmtime) (prints : PrintsFields dovecot.iso8601DateCreateTm)
    (dtxn : DriverTxn) (msg : TxnMsg) (known : data.date ≠ -1)
    (first : DateTime.yearStart 0 ≤ data.date) (last : data.date < DateTime.yearStart 10000)
    (west : -1440 < data.dateTz) (east : data.dateTz < 1440) :
    ∃ stamp, ShowsDate dovecot dtxn msg data stamp ∧ denotes stamp = some (data.date - 60 * data.dateTz) := by
  obtain ⟨shown, fields, same⟩ := utc data.date
  have from0 : 0 ≤ shown.date.year := by
    rw [← not_lt, shown.year_lt_iff, same, not_lt]
    exact first
  have to9999 : shown.date.year < 10000 := by
    rw [shown.year_lt_iff, same]
    exact last
  have fits : timestamp.Fits ⟨shown, data.dateTz⟩ := ⟨⟨from0, to9999⟩, west, east⟩
  have printed : dovecot.iso8601DateCreateTm (dovecot.gmtime data.date) data.dateTz =
      timestamp.print ⟨shown, data.dateTz⟩ := by
    rw [fields]
    exact prints _ fits
  refine ⟨_, messagenew_shows dtxn msg known ?_, ?_⟩
  · rw [printed]
    exact timestamp_plain _
  · rw [printed, denotes_print fits, Timestamp.instant, same]

/-- The timestamp of a date denotes this date exactly when the zone of the sender is that
of UTC. -/
theorem messagenew_denotes_iff (utc : GivesUtc dovecot.gmtime) (prints : PrintsFields dovecot.iso8601DateCreateTm)
    (dtxn : DriverTxn) (msg : TxnMsg) (known : data.date ≠ -1)
    (first : DateTime.yearStart 0 ≤ data.date) (last : data.date < DateTime.yearStart 10000)
    (west : -1440 < data.dateTz) (east : data.dateTz < 1440) :
    (∃ stamp, ShowsDate dovecot dtxn msg data stamp ∧ denotes stamp = some data.date) ↔ data.dateTz = 0 := by
  obtain ⟨stamp, shows, instant⟩ := messagenew_denotes utc prints dtxn msg known first last west east
  constructor
  · rintro ⟨stamp', shows', intended⟩
    rw [shows'.unique shows, instant, Option.some.injEq] at intended
    omega
  · intro zero
    refine ⟨stamp, shows, ?_⟩
    rw [instant, zero]
    simp

namespace Sample

/-- `%04d-%02d-%02dT%02d:%02d:%02d` and the offset. -/
def isoDate (tm : Tm) (offset : Int) : CStr :=
  Format.digits 4 (tm.year + 1900).toNat ++ minus :: (Format.digits 2 (tm.mon + 1).toNat ++
    minus :: Format.digits 2 tm.mday.toNat) ++ ascii 'T' :: (Format.digits 2 tm.hour.toNat ++
    colon :: (Format.digits 2 tm.min.toNat ++ colon :: Format.digits 2 tm.sec.toNat)) ++
    Iso8601.offset.print offset

theorem isoDate_prints : PrintsFields isoDate := by
  intro stamp _
  simp [isoDate, tmOf, timestamp, date, clock, Format.via, Format.pair, Format.after, Format.number,
    Int.toNat_natCast]

def timekeeper : Dovecot :=
  { dovecot with gmtime := fun t => tmOf (.ofInstant t), iso8601DateCreateTm := isoDate }

theorem timekeeper_utc : GivesUtc timekeeper.gmtime :=
  fun t => ⟨.ofInstant t, rfl, DateTime.instant_ofInstant t⟩

/-- A message that was sent at 2018-08-30 14:02:03 UTC, from a zone with this offset. -/
def received (dateTz : Int) : MessagenewData := ⟨1535637723, dateTz, none, none, none, none⟩

end Sample

theorem messagenew_denotes_iff_utc :
    ∃ stamp, ShowsDate Sample.timekeeper Sample.dtxn (Sample.msg []) (Sample.received 0) stamp ∧
      denotes stamp = some 1535637723 :=
  (messagenew_denotes_iff Sample.timekeeper_utc Sample.isoDate_prints Sample.dtxn (Sample.msg []) (by decide)
    (by decide) (by decide) (by decide) (by decide)).mpr rfl

/-- Two hours east of UTC, the timestamp denotes 12:02:03 UTC. -/
theorem messagenew_two_hours_early :
    ShowsDate Sample.timekeeper Sample.dtxn (Sample.msg []) (Sample.received 120)
        (lit "2018-08-30T14:02:03+02:00") ∧
      denotes (lit "2018-08-30T14:02:03+02:00") = some (1535637723 - 7200) ∧
      ¬ ∃ stamp, ShowsDate Sample.timekeeper Sample.dtxn (Sample.msg []) (Sample.received 120) stamp ∧
        denotes stamp = some 1535637723 := by
  have known : (Sample.received 120).date ≠ -1 := by decide
  have printed : Sample.timekeeper.iso8601DateCreateTm
      (Sample.timekeeper.gmtime (Sample.received 120).date) (Sample.received 120).dateTz =
        lit "2018-08-30T14:02:03+02:00" := by decide +kernel
  have plain : Plain (lit "2018-08-30T14:02:03+02:00") := by decide
  have shown := messagenew_shows Sample.dtxn (Sample.msg []) known (printed ▸ plain)
  rw [printed] at shown
  have instant : denotes (lit "2018-08-30T14:02:03+02:00") = some (1535637723 - 7200) := by decide +kernel
  refine ⟨shown, instant, ?_⟩
  rintro ⟨stamp, other, intended⟩
  rw [other.unique shown, instant] at intended
  exact absurd intended (by decide)

end PushNotificationKafka
