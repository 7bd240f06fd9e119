import Flowstatd.Netflow.Globals

/-!
# Flow start times

`fttime.c` and `ConvertNfTime`. The result of `ftltime` is handed to `localtime_r` through a
cast of the pointer to its first field, so the 64-bit `time_t` read there has the milliseconds
as its high word.
-/

namespace Flowstatd

/-- `NfTimeInfo_t`. -/
structure NfTimeInfo where
  sysUptime : U32
  unixSecs : U32
  unixNsecs : U32
  firstPacketTime : U32
deriving DecidableEq

/-- `struct fttime`. -/
structure FtTime where
  secs : U32
  msecs : U32
deriving DecidableEq

def ftltime (sys secs nsecs t : U32) : FtTime :=
  let sysS := sys / 1000
  let sysM := sys % 1000
  let ftt : FtTime := ⟨secs,nsecs / 1000000⟩
  let ftt : FtTime := { ftt with secs := ftt.secs - sysS }
  -- borrow a second?
  let ftt : FtTime := if sysM > ftt.msecs then ⟨ftt.secs - 1,ftt.msecs + 1000⟩ else ftt
  let ftt : FtTime := { ftt with msecs := ftt.msecs - sysM }
  let ftt : FtTime := ⟨ftt.secs + t / 1000,ftt.msecs + t % 1000⟩
  if ftt.msecs ≥ 1000 then ⟨ftt.secs + 1,ftt.msecs - 1000⟩ else ftt

/-- `*(time_t *) &ftt.secs` on a little-endian machine with 64-bit `time_t`. -/
def FtTime.asTimeT (ftt : FtTime) : Int := (ftt.msecs ++ ftt.secs : BitVec 64).toInt

theorem hourOfDay_lt (t : Int) : (t % 86400 / 3600).toNat < 24 := by omega

/-- `localtime_r` where local time is universal time: days are counted from the first of March of the
year 0, and years from March, so that a leap day is the last one. -/
def utc (t : Int) : Tm :=
  let day := t / 86400 + 719468
  let ofEra := day % 146097
  let yearOfEra := (ofEra - ofEra / 1460 + ofEra / 36524 - ofEra / 146096) / 365
  let ofYear := ofEra - (365 * yearOfEra + yearOfEra / 4 - yearOfEra / 100)
  let month := (5 * ofYear + 2) / 153
  { tmYear := day / 146097 * 400 + yearOfEra - 1900 + if month < 10 then 0 else 1
    tmMon := ⟨((month + 2) % 12).toNat,by omega⟩
    tmMday := (ofYear - (153 * month + 2) / 5 + 1).toNat
    tmHour := ⟨(t % 86400 / 3600).toNat,hourOfDay_lt t⟩ }

/-- `localtime` stands for `localtime_r`, a function of the seconds it is passed. -/
def convertNfTime (localtime : Int → Tm) (info : NfTimeInfo) : Tm :=
  localtime (ftltime info.sysUptime info.unixSecs info.unixNsecs info.firstPacketTime).asTimeT

end Flowstatd
