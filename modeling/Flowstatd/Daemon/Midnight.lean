import Flowstatd.Daemon.Session

/-!
# The file of yesterday

The rollover goes 86400 seconds back before it converts to local time. Local time is UTC and an
offset that changes once.
-/

namespace Flowstatd

open Framework

/-- A local time whose offset to UTC goes from `before` to `after` at the moment `change`. Days are
numbered, and `dateOf` is the calendar. -/
structure Zone where
  dateOf : Int → Int × Fin 12 × Nat
  dateOf_injective : Function.Injective dateOf
  change : Int
  before : Int
  after : Int
  oneHour : after = before ∨ after = before + 3600 ∨ after = before - 3600

namespace Zone

def offset (z : Zone) (t : Int) : Int := if t < z.change then z.before else z.after

/-- Number of the local day of a moment. -/
def localDay (z : Zone) (t : Int) : Int := (t + z.offset t) / 86400

def localHour (z : Zone) (t : Int) : Int := (t + z.offset t) % 86400 / 3600

theorem localHour_lt (z : Zone) (t : Int) : (z.localHour t).toNat < 24 := by
  rw [localHour]
  omega

/-- `localtime_r`. -/
def localtime (z : Zone) (t : Int) : Tm :=
  let (year,mon,mday) := z.dateOf (z.localDay t)
  ⟨year,mon,mday,⟨(z.localHour t).toNat,z.localHour_lt t⟩⟩

@[simp] theorem localtime_date (z : Zone) (t : Int) :
    (z.localtime t).date = z.dateOf (z.localDay t) := rfl

theorem localtime_hour (z : Zone) (t : Int) : ((z.localtime t).tmHour.val : Int) = z.localHour t := by
  change (((z.localHour t).toNat : Nat) : Int) = z.localHour t
  rw [localHour]
  omega

end Zone

/-- The datagram at `now` is in the hour after midnight and the one before it, at `prev`, was in the
hour before that midnight. The offset changes during the day that has ended, by the old or by the
new local time. -/
structure AcrossMidnight (z : Zone) (day prev now : Int) : Prop where
  prevDay : z.localDay prev = day
  prevHour : (z.localtime prev).tmHour.val = 23
  nowDay : z.localDay now = day + 1
  nowHour : (z.localtime now).tmHour.val = 0
  change : (z.change + z.before) / 86400 = day ∨ (z.change + z.after) / 86400 = day

/-- The datagram makes the session write one file, the one of the given day and of no other. -/
def WritesFileOf (gz : Nat → Nat) (z : Zone) (day now : Int) (s : Session) (d' : Daemon) : Prop :=
  ∃ f, (s.afterDatagram gz z.localtime now d').files = f :: s.files ∧
    ∀ day', f.date = z.dateOf day' ↔ day' = day

section Rollover

variable {gz : Nat → Nat} {z : Zone} {day prev now : Int} {s : Session} {d' : Daemon}

/-- The file is named for the local day of the moment 86400 seconds ago. -/
theorem writesFileOf_iff (hrolls : s.daemon.RollsOver z.localtime now) :
    WritesFileOf gz z day now s d' ↔ z.localDay (now - 86400) = day := by
  have hfiles : (s.afterDatagram gz z.localtime now d').files =
      s.saved gz (z.dateOf (z.localDay (now - 86400))) :: s.files := if_pos hrolls
  constructor
  · rintro ⟨f,hf,hname⟩
    rw [hfiles,List.cons.injEq] at hf
    exact (hname _).mp (congrArg SavedFile.date hf.1).symm
  · rintro rfl
    exact ⟨_,hfiles,fun day' => ⟨fun h => (z.dateOf_injective h).symm,fun h => h ▸ rfl⟩⟩

/-- A day and the hour after it: the moment 86400 seconds earlier is on that day unless the day is
an hour short, and then it is on the day before. -/
private theorem day_ago (h : AcrossMidnight z day prev now) :
    z.localDay (now - 86400) = day ↔ ¬(z.before < z.after ∧ now - 86400 < z.change) := by
  obtain ⟨-,-,hday,hhour,hchange⟩ := h
  have hhour' := z.localtime_hour now
  rw [hhour] at hhour'
  have hoffset := z.oneHour
  simp only [Zone.localDay,Zone.localHour,Zone.offset] at hday hhour' ⊢
  split_ifs at hday hhour' ⊢ <;> omega

/-- The rollover writes the file of the day that has ended exactly when the clock has not been put
forward within the last 86400 seconds. -/
theorem rollover_file_iff (h : AcrossMidnight z day prev now)
    (hprev : s.daemon.preHour = (z.localtime prev).tmHour) (d' : Daemon) :
    WritesFileOf gz z day now s d' ↔ ¬(z.before < z.after ∧ now - 86400 < z.change) := by
  have hrolls : s.daemon.RollsOver z.localtime now := ⟨by rw [hprev]; exact h.prevHour,h.nowHour⟩
  rw [writesFileOf_iff hrolls,day_ago h]

private theorem march_lt : 2 < 12 := by decide

/-- The days of March 2012, and a name of its own for every other day. -/
def marchDate (n : Int) : Int × Fin 12 × Nat :=
  if 15400 ≤ n ∧ n < 15431 then (112,⟨2,march_lt⟩,(n - 15399).toNat) else (n,⟨2,march_lt⟩,0)

/-- Central European time: at one o'clock UTC on 25 March the clock goes from two to three. -/
def centralEurope : Zone where
  dateOf := marchDate
  dateOf_injective m n h := by
    simp only [marchDate] at h
    split_ifs at h with hm hn hn
    · have hday := congrArg (fun date : Int × Fin 12 × Nat => date.2.2) h
      simp only at hday
      omega
    · exact absurd (congrArg (fun date : Int × Fin 12 × Nat => date.2.2) h) (by simp; omega)
    · exact absurd (congrArg (fun date : Int × Fin 12 × Nat => date.2.2) h) (by simp; omega)
    · exact congrArg (fun date : Int × Fin 12 × Nat => date.1) h
  change := 1332637200
  before := 3600
  after := 7200
  oneHour := .inr (.inl rfl)

/-- A session whose last datagram came at half past eleven on that evening. -/
def shortDay : Session :=
  ⟨startup centralEurope.localtime 1332711000 (fun _ => 0) oneSubnetMachine.globals,1332711000,[],[],
    true⟩

theorem shortDay_midnight : AcrossMidnight centralEurope 15424 1332711000 1332713400 :=
  ⟨by decide,by decide,by decide,by decide,.inl (by decide)⟩

theorem rollover_file_iff_shortDay :
    WritesFileOf zlibLength centralEurope 15424 1332713400 shortDay shortDay.daemon ↔
      ¬(centralEurope.before < centralEurope.after ∧
        (1332713400 : Int) - 86400 < centralEurope.change) :=
  rollover_file_iff shortDay_midnight rfl shortDay.daemon

/-- On the day when the clock is put forward the file of the day before it is overwritten. -/
theorem short_day_overwrites :
    AcrossMidnight centralEurope 15424 1332711000 1332713400 ∧
      shortDay.daemon.preHour = (centralEurope.localtime 1332711000).tmHour ∧
      ((shortDay.afterDatagram zlibLength centralEurope.localtime 1332713400 shortDay.daemon).files.map
        SavedFile.date) = [(112,2,24)] ∧
      ¬WritesFileOf zlibLength centralEurope 15424 1332713400 shortDay shortDay.daemon := by
  have hrolls : shortDay.daemon.RollsOver centralEurope.localtime 1332713400 := by decide
  refine ⟨shortDay_midnight,rfl,by decide,fun hfile => ?_⟩
  exact absurd ((writesFileOf_iff hrolls).mp hfile) (by decide)

end Rollover

end Flowstatd
