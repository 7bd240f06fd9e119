import Flowstatd.Netflow.Counting
import Flowstatd.Netflow.HandlerV5

/-!
# When a flow started

The value that `ftltime` computes in two 32-bit words, the value that `localtime_r` reads there,
and the day test that the broken-down time goes through.
-/

namespace Flowstatd

section Start

/-- The start of the flow in milliseconds, over the integers. -/
def startMillis (info : NfTimeInfo) : Int :=
  info.unixSecs.toNat * 1000 + info.unixNsecs.toNat / 1000000 - info.sysUptime.toNat +
    info.firstPacketTime.toNat

/-- Its second, in 32 bits. -/
def startSecond (info : NfTimeInfo) : Int := startMillis info / 1000 % 2 ^ 32

theorem ftltime_value (info : NfTimeInfo) (h : info.unixNsecs.toNat < 10 ^ 9) :
    let ftt := ftltime info.sysUptime info.unixSecs info.unixNsecs info.firstPacketTime
    (ftt.secs.toNat : Int) = startSecond info ∧ (ftt.msecs.toNat : Int) = startMillis info % 1000 := by
  obtain ⟨sys,secs,nsecs,t⟩ := info
  have hsys := sys.isLt
  have hsecs := secs.isLt
  have ht := t.isLt
  have hthousand : (1000 : U32).toNat = 1000 := rfl
  have hmillion : (1000000 : U32).toNat = 1000000 := rfl
  have hone : (1 : U32).toNat = 1 := rfl
  simp only [ftltime,startSecond,startMillis,gt_iff_lt,ge_iff_le,BitVec.lt_def,BitVec.le_def,
    BitVec.toNat_umod,BitVec.toNat_udiv,hthousand,hmillion] at h ⊢
  -- the borrow and the carry
  split_ifs with hborrow hcarry hcarry <;>
    simp only [BitVec.toNat_add,BitVec.toNat_sub,BitVec.toNat_umod,BitVec.toNat_udiv,
      hthousand,hmillion,hone] at hborrow hcarry ⊢ <;> omega

theorem FtTime.asTimeT_eq (ftt : FtTime) (h : ftt.msecs.toNat < 2 ^ 31) :
    ftt.asTimeT = ftt.msecs.toNat * 2 ^ 32 + ftt.secs.toNat := by
  have hsecs := ftt.secs.isLt
  have happend : (ftt.msecs ++ ftt.secs : BitVec 64).toNat =
      ftt.msecs.toNat * 2 ^ 32 + ftt.secs.toNat := by
    rw [BitVec.toNat_append,Nat.shiftLeft_eq,Nat.mul_comm,← Nat.two_pow_add_eq_or_of_lt hsecs]
  have htoInt : ftt.asTimeT = ((ftt.msecs ++ ftt.secs : BitVec 64).toNat : Int) :=
    BitVec.toInt_eq_toNat_of_lt (by omega)
  rw [htoInt,happend]
  push_cast
  rfl

/-- `localtime_r` is passed the second, with the milliseconds as its high word. -/
theorem passed_time_eq (info : NfTimeInfo) (h : info.unixNsecs.toNat < 10 ^ 9) :
    (ftltime info.sysUptime info.unixSecs info.unixNsecs info.firstPacketTime).asTimeT =
      startMillis info % 1000 * 2 ^ 32 + startSecond info := by
  obtain ⟨hsecs,hmsecs⟩ := ftltime_value info h
  rw [FtTime.asTimeT_eq _ (by omega),hsecs,hmsecs]

/-- `ConvertNfTime` returns the local time of the start second, whatever the local time is,
exactly for flows that start on a whole second. -/
theorem convertNfTime_start_iff (info : NfTimeInfo) (h : info.unixNsecs.toNat < 10 ^ 9) :
    (∀ localtime, convertNfTime localtime info = localtime (startSecond info)) ↔
      startMillis info % 1000 = 0 := by
  constructor
  · intro hall
    -- a local time that tells this second from all others
    have hyear := congrArg Tm.tmYear (hall fun t => ⟨if t = startSecond info then 1 else 0,0,0,0⟩)
    simp only [convertNfTime,passed_time_eq info h,ite_true] at hyear
    split_ifs at hyear with hsame
    · omega
    · exact absurd hyear (by decide)
  · intro hwhole localtime
    rw [convertNfTime,passed_time_eq info h,hwhole,zero_mul,zero_add]

/-- A router that has been up for a second, and a flow that started a millisecond ago. -/
def lateMillisecond : NfTimeInfo := ⟨1000,1340000000,0,999⟩

theorem convertNfTime_start_iff_late :
    (∀ localtime, convertNfTime localtime lateMillisecond =
      localtime (startSecond lateMillisecond)) ↔ startMillis lateMillisecond % 1000 = 0 :=
  convertNfTime_start_iff lateMillisecond (by decide)

/-- Its 999 milliseconds are taken for another 136 millennia. -/
theorem late_millisecond_misread :
    lateMillisecond.unixNsecs.toNat < 10 ^ 9 ∧ startSecond lateMillisecond = 1339999999 ∧
      (∀ localtime, convertNfTime localtime lateMillisecond =
        localtime (999 * 2 ^ 32 + 1339999999)) ∧
      ¬∀ localtime, convertNfTime localtime lateMillisecond =
        localtime (startSecond lateMillisecond) := by
  refine ⟨by decide,by decide,fun _ => rfl,fun h => ?_⟩
  have hyear := congrArg Tm.tmYear (h fun t => ⟨t,0,0,0⟩)
  exact absurd hyear (by decide)

end Start

section Day

variable {localtime : Int → Tm} {g : Globals} {f : Flow}

/-- The same local calendar date. -/
def Tm.SameDate (tm tm' : Tm) : Prop :=
  tm.tmYear = tm'.tmYear ∧ tm.tmMon = tm'.tmMon ∧ tm.tmMday = tm'.tmMday

instance (tm tm' : Tm) : Decidable (tm.SameDate tm') := inferInstanceAs (Decidable (_ ∧ _ ∧ _))

/-- The flow changes a counter of the table. -/
def Flow.ChangesCounter (localtime : Int → Tm) (g : Globals) (f : Flow) : Prop :=
  ∃ i < g.ipTable.length,
    let e := entryAt g.ipTable i
    let e' := entryAt (insertFlow localtime g f).ipTable i
    e'.hflow ≠ e.hflow ∨ e'.nflow ≠ e.nflow ∨ e'.sum ≠ e.sum

private theorem book_nothing (e : HostFlow) (addr : InAddr) (hour : Fin 24) (d : Direction) :
    (e.book addr hour d 0).hflow = e.hflow ∧ (e.book addr hour d 0).nflow = e.nflow ∧
      (e.book addr hour d 0).sum = e.sum := by
  refine ⟨?_,?_,?_⟩
  · funext i d'
    simp [HostFlow.book_hflow]
  · funext d'
    simp [HostFlow.book_nflow]
  · simp [HostFlow.book]

theorem changesCounter_iff :
    f.ChangesCounter localtime g ↔
      f.flowBytes ≠ 0 ∧ f.PassesDay localtime g ∧ ∃ i < g.ipTable.length, ∃ d, f.CountsFor g i d := by
  constructor
  · rintro ⟨i,hi,hchange⟩
    rcases insertFlow_entry localtime f hi with ⟨d,hday,hcounts,heq⟩ | ⟨-,heq⟩
    · refine ⟨fun hzero => ?_,hday,i,hi,d,hcounts⟩
      obtain ⟨hhflow,hnflow,hsum⟩ := book_nothing (entryAt g.ipTable i) (f.label d)
        (convertNfTime localtime f.info).tmHour d
      simp only [heq,hzero,hhflow,hnflow,hsum,ne_eq,not_true_eq_false,or_self] at hchange
    · simp only [heq,ne_eq,not_true_eq_false,or_self] at hchange
  · rintro ⟨hbytes,hday,i,hi,d,hcounts⟩
    refine ⟨i,hi,.inr (.inr fun hsame => hbytes ?_)⟩
    have hsome : f.CountsFor g i .upload ∨ f.CountsFor g i .download := by
      cases d with
      | upload => exact .inl hcounts
      | download => exact .inr hcounts
    rw [insertFlow_sum f hi,if_pos ⟨hday,hsome⟩] at hsame
    have hnone : f.flowBytes.setWidth 64 = 0#64 := BitVec.add_right_eq_self.mp hsame
    have hlt := f.flowBytes.isLt
    have hval := congrArg BitVec.toNat hnone
    rw [BitVec.toNat_setWidth,Nat.mod_eq_of_lt (by omega)] at hval
    exact BitVec.eq_of_toNat_eq hval

/-- A flow that changes a counter has started on the date of `localtm` exactly when, if it has
bytes for a slot and its day of the month is that of `localtm`, its month and year are, too. -/
theorem counts_only_today_iff :
    (f.ChangesCounter localtime g → (convertNfTime localtime f.info).SameDate g.localtm) ↔
      (f.flowBytes ≠ 0 → (∃ i < g.ipTable.length, ∃ d, f.CountsFor g i d) →
        (convertNfTime localtime f.info).tmMday = g.localtm.tmMday →
        (convertNfTime localtime f.info).tmYear = g.localtm.tmYear ∧
          (convertNfTime localtime f.info).tmMon = g.localtm.tmMon) := by
  rw [changesCounter_iff]
  constructor
  · intro h hbytes hslot hday
    obtain ⟨hyear,hmon,-⟩ := h ⟨hbytes,hday,hslot⟩
    exact ⟨hyear,hmon⟩
  · rintro h ⟨hbytes,hday,hslot⟩
    obtain ⟨hyear,hmon⟩ := h hbytes hslot hday
    exact ⟨hyear,hmon,hday⟩

/-- 1000 bytes from 10.0.0.1 to 8.8.8.8, on 18 June 2011 at 06:13. -/
def uploadLastYear : Flow := ⟨0x0100000a,0x08080808,1000,⟨0,1308377600,0,0⟩⟩

theorem last_year_counted :
    ¬((uploadLastYear.ChangesCounter utc oneSubnetMachine.globals) →
      (convertNfTime utc uploadLastYear.info).SameDate oneSubnetMachine.globals.localtm) := by
  intro h
  have hchanges : uploadLastYear.ChangesCounter utc oneSubnetMachine.globals :=
    changesCounter_iff.mpr
      ⟨by decide,by decide +kernel,0,by decide,.upload,by decide +kernel,by decide +kernel⟩
  exact absurd (h hchanges) (by decide +kernel)

end Day

end Flowstatd
