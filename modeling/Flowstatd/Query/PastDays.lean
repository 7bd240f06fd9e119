import Flowstatd.Daemon.Archive
import Flowstatd.Daemon.FileNames
import Flowstatd.Query.PastDate

/-!
# Asking later

A request for a date reads the file that was last exported under it. It is answered as a request
for today would have been when that file was written.
-/

namespace Flowstatd

open Framework

section Replies

variable {qsort : List HostFlow → List HostFlow} {host : Surroundings} {g saved : Globals}
  {whitelist : Whitelist} {jsonRoot today : Json} {isShowAll : Bool} {cmd : String}

/-- A past date shows what was in the table when its file was written. -/
theorem parseDate_saved (host : Surroundings) {live s : Globals} {text : String}
    {date : Int × Fin 12 × Nat} (hpast : sameIgnoringCase text "today" = false)
    (htm : host.strptime text = some date)
    (hrecord : host.record date = some (exportRecordBy zlibLength s)) (hlive : live.WellSized)
    (hs : s.WellSized) (hcall : hostflowSize * s.sumIpCount.toNat < 2 ^ 31)
    (hle : live.sumIpCount ≤ s.sumIpCount) :
    ∃ g, parseDate host live text = .ok (.globals g (.date (dateText date))) ∧ ShowsSaved s g := by
  obtain ⟨g,himport,hshows⟩ := importRecordBy_showsSaved hlive hs (zlibLength_movesUpTo hcall)
    host.heap host.tmpVal hle
  refine ⟨g,?_,hshows⟩
  simp only [parseDate,hpast,Bool.false_eq_true,if_false,htm,hrecord,himport]

/-- The reply with another date in its response. -/
def Reply.dated (member : DateMember) (reply : Reply) : Reply :=
  { reply with response :=
    { reply.response with date := reply.response.date.map fun _ => member } }

/-- The same request, for today. -/
structure ForToday (jsonRoot today : Json) : Prop where
  date : today.member? "date" = some (.string "today")
  others : ∀ name, name ≠ "date" → today.member? name = jsonRoot.member? name

private theorem ForToday.parseShowAll_eq (h : ForToday jsonRoot today) :
    parseShowAll host today = parseShowAll host jsonRoot := by
  rw [parseShowAll,parseShowAll,h.others "showAll" (by decide)]

/-- The child finds the files of the session, in a directory with this name. -/
def Surroundings.Reads (host : Surroundings) (savePrefix : List Char) (s : Session) : Prop :=
  ∀ date, host.record date = (s.findNamed savePrefix date).map SavedFile.contents

private theorem map_map {α β γ ε : Type} (f : α → β) (f' : β → γ) (x : Except ε α) :
    (x.map f).map f' = x.map (f' ∘ f) := by
  cases x <;> rfl

private theorem runCommand_dated (hshows : ShowsSaved saved g) (htoday : ForToday jsonRoot today)
    (whitelist : Whitelist) (isShowAll : Bool) (cmd : String) (jsonResp : Response)
    (member member' : DateMember) :
    runCommand qsort g whitelist jsonRoot isShowAll cmd { jsonResp with date := some member } =
      (runCommand qsort saved whitelist today isShowAll cmd
        { jsonResp with date := some member' }).map (Reply.dated member) := by
  rw [runCommand,runCommand,htoday.others "ip" (by decide),htoday.others "overValue" (by decide),
    htoday.others "limit" (by decide)]
  split_ifs
  · cases jsonRoot.member? "ip" >>= Json.string? with
    | none => rfl
    | some ip =>
      simp only [hshows.byIP,map_map]
      rfl
  · cases jsonRoot.member? "overValue" >>= Json.integer? with
    | none => rfl
    | some value =>
      simp only [hshows.byFlow,map_map]
      rfl
  · cases jsonRoot.member? "limit" >>= Json.integer? with
    | none => rfl
    | some value =>
      simp only [hshows.byTopN,map_map]
      rfl
  · rfl

variable {localtime : Int → Tm} {savePrefix : List Char} {past : List (Session × Action)}
  {s : Session} {text : String} {date : Int × Fin 12 × Nat}

/-- In a directory of at most 71 bytes, while the table is not longer than it was and one call of the
gz library moves it, a past date is answered as today was when the last file of that date was
written, with the same whitelist. Other dates have no data. -/
theorem past_date_answered (qsort : List HostFlow → List HostFlow) (whitelist : Whitelist)
    (hshort : savePrefix.length ≤ 71) (h : NamedRun zlibLength localtime savePrefix past s)
    (hyears : DatesPrintable localtime past s) (hreads : host.Reads savePrefix s)
    (hmember : jsonRoot.member? "date" = some (.string text))
    (hpast : sameIgnoringCase text "today" = false) (htm : host.strptime text = some date)
    (hdate : FourDigits date) (htoday : ForToday jsonRoot today) :
    (∀ t, past.find? (fun t => exportDate localtime t.1 t.2 = some date) = some t →
      hostflowSize * t.1.daemon.globals.sumIpCount.toNat < 2 ^ 31 →
      s.daemon.globals.sumIpCount ≤ t.1.daemon.globals.sumIpCount →
        parseCmd qsort host s.daemon.globals whitelist (some jsonRoot) =
          (parseCmd qsort host t.1.daemon.globals whitelist (some today)).map
            (Reply.dated (.date (dateText date)))) ∧
    ((∀ t ∈ past, exportDate localtime t.1 t.2 ≠ some date) →
      ∀ cmd, jsonRoot.member? "command" = some (.string cmd) →
        parseCmd qsort host s.daemon.globals whitelist (some jsonRoot) =
          .ok ⟨false,retInfo .noData,some cmd,none,none,none,none,none,none⟩) := by
  have hrecord : host.record date = (past.find? fun t =>
      exportDate localtime t.1 t.2 = some date).map
        fun t => exportRecordBy zlibLength t.1.daemon.globals := by
    rw [hreads,findNamed_eq (Nat.lt_of_le_of_lt hshort (by decide))
      (fun f hf => h.dated.fourDigits le_rfl hyears hf) hdate,if_pos hshort,h.find_file,
      Option.map_map]
    rfl
  constructor
  · intro t ht hcall hle
    rw [ht] at hrecord
    have hsaved := h.sized.2 t (List.mem_of_find?_eq_some ht)
    obtain ⟨g',hday,hshows⟩ :=
      parseDate_saved host hpast htm hrecord h.sized.1.1 hsaved hcall hle
    have hnow : parseDate host t.1.daemon.globals "today" =
        .ok (.globals t.1.daemon.globals (.datetime (host.strftime t.1.daemon.globals.localtm))) :=
      rfl
    have hother := htoday.others "command" (by decide)
    by_cases hcommand : ∃ cmd, jsonRoot.member? "command" = some (.string cmd)
    · obtain ⟨cmd,hcmd⟩ := hcommand
      rw [parseCmd_of_day qsort whitelist hcmd hmember hday,
        parseCmd_of_day qsort whitelist (hother.trans hcmd) htoday.date hnow,
        htoday.parseShowAll_eq]
      cases parseShowAll host jsonRoot with
      | error fault => rfl
      | ok isShowAll =>
        exact runCommand_dated hshows htoday whitelist isShowAll cmd
          ⟨retInfo .invalidCommand,some cmd,none,none,none,none,none,none⟩ _ _
    · rw [parseCmd_without_command hcommand,parseCmd_without_command (hother ▸ hcommand)]
      rfl
  · intro hnone cmd hcmd
    have hmissing : host.record date = none := by
      rw [hrecord,List.find?_eq_none.mpr (by simpa using hnone)]
      rfl
    have hobject : jsonRoot.isObject = true := isObject_of_member hcmd
    have hday : parseDate host s.daemon.globals text = .ok (.error .noData) := by
      simp only [parseDate,hpast,Bool.false_eq_true,if_false,htm,hmissing]
    simp only [parseCmd,hobject,hcmd,hmember,hday,Option.bind_eq_bind,Option.bind_some,
      Json.string?,Bool.not_true,Bool.false_eq_true,if_false]
    rfl

/-- A child with the files of a session. -/
def juneHost (savePrefix : List Char) (s : Session) : Surroundings :=
  { morningHost with
    strptime := fun text => if text = "2012-06-18" then some juneMorning.date else none
    record := fun date => (s.findNamed savePrefix date).map SavedFile.contents }

def topRequest (date : String) : Json :=
  .object [("command",.string "showTopList"),("limit",.integer 1),("date",.string date)]

private theorem topRequest_forToday (date : String) :
    ForToday (topRequest date) (topRequest "today") := by
  refine ⟨rfl,fun name hname => ?_⟩
  simp [topRequest,Json.member?,List.find?_cons,Ne.symm hname]

/-- The datagram of the borrowed template, which books 1000 bytes on the 18th. -/
private def booked (now : Int) (d : Daemon) : Outcome Daemon :=
  handleDatagram utcJune now (fun _ => 0) borrowedTemplatePacket 0x08080808 5 d

/-- 1000 bytes, a hangup, and 1000 bytes again: for the 18th there are 1000. -/
theorem past_date_answered_evening :
    ∃ past evening s, NamedRun zlibLength utcJune "/data/flowstatd/data".toList past s ∧
      evening ∈ past.map Prod.fst ∧
      (∃ e ∈ evening.daemon.globals.ipTable, e.nflow .upload = 1000) ∧
      (∃ e ∈ s.daemon.globals.ipTable, e.nflow .upload = 2000) ∧
      parseCmd insertionQsort (juneHost "/data/flowstatd/data".toList s) s.daemon.globals
          (fun _ => 0) (some (topRequest "2012-06-18")) =
        (parseCmd insertionQsort (juneHost "/data/flowstatd/data".toList s)
          evening.daemon.globals (fun _ => 0) (some (topRequest "today"))).map
            (Reply.dated (.date (dateText (112,5,18)))) := by
  let first := booked 1340056800 juneSession.daemon
  let second := booked 1340056900 first.state
  have hfirst : Ends (handleDatagram utcJune 1340056800 (fun _ => 0) borrowedTemplatePacket
      0x08080808) juneSession.daemon first.state :=
    ⟨5,Outcome.eq_finished_state (by decide +kernel)⟩
  have hsecond : Ends (handleDatagram utcJune 1340056900 (fun _ => 0) borrowedTemplatePacket
      0x08080808) first.state second.state :=
    ⟨5,Outcome.eq_finished_state (by decide +kernel)⟩
  obtain ⟨evening,hevening,hrunning,hclock,hdaemon⟩ : ∃ evening, Step zlibLength utcJune juneSession
      (.datagram 1340056800 (fun _ => 0) borrowedTemplatePacket 0x08080808) evening ∧
      evening.running ∧ evening.clock = 1340056800 ∧ evening.daemon = first.state :=
    ⟨_,.datagram rfl (by decide) hfirst,rfl,rfl,Session.afterDatagram_daemon _ _ _ _ _⟩
  obtain ⟨saved,hsaved,hrunning',hclock',hdaemon'⟩ : ∃ saved, Step zlibLength utcJune evening
      (.hangup 1340056800) saved ∧ saved.running ∧ saved.clock = 1340056800 ∧
      saved.daemon = first.state :=
    ⟨_,.hangup hrunning hclock.le,hrunning,rfl,hdaemon⟩
  have hsecond' : Ends (handleDatagram utcJune 1340056900 (fun _ => 0) borrowedTemplatePacket
      0x08080808) saved.daemon second.state := by
    rw [hdaemon']
    exact hsecond
  obtain ⟨night,hnight,hlate,hlast⟩ : ∃ night, Step zlibLength utcJune saved
      (.datagram 1340056900 (fun _ => 0) borrowedTemplatePacket 0x08080808) night ∧
      night.clock < 1345000000 ∧ night.daemon = second.state :=
    ⟨saved.afterDatagram zlibLength utcJune 1340056900 second.state,
      .datagram hrunning' (by rw [hclock']; decide) hsecond',
      show (1340056900 : Int) < 1345000000 by decide,Session.afterDatagram_daemon _ _ _ _ _⟩
  have hrun : NamedRun zlibLength utcJune "/data/flowstatd/data".toList _ night :=
    .step (.step (.step (.start oneSubnet_booted) (.running rfl hevening)) (.running hrunning hsaved))
      (.running hrunning' hnight)
  have hbytes : ∃ e ∈ first.state.globals.ipTable, e.nflow .upload = 1000 := by decide +kernel
  have hmore : ∃ e ∈ second.state.globals.ipTable, e.nflow .upload = 2000 := by decide +kernel
  have hcount : second.state.globals.sumIpCount = first.state.globals.sumIpCount := by decide +kernel
  have hcall : hostflowSize * first.state.globals.sumIpCount.toNat < 2 ^ 31 := by decide +kernel
  have hreads : (juneHost "/data/flowstatd/data".toList night).Reads "/data/flowstatd/data".toList
      night := fun _ => rfl
  have hdate : FourDigits (112,5,18) := ⟨by decide,by decide⟩
  have hanswered := past_date_answered insertionQsort (fun _ => 0) (by decide) hrun
    (utcJune_printable _ hlate) hreads rfl (by decide) rfl hdate (topRequest_forToday "2012-06-18")
  have hstays : ¬saved.daemon.RollsOver utcJune 1340056900 :=
    fun hroll => absurd hroll.2 (by decide +kernel)
  have hnone : exportDate utcJune saved (.datagram 1340056900 (fun _ => 0) borrowedTemplatePacket
      0x08080808) = none := if_neg hstays
  have hday : (utcJune 1340056800).date = (112,5,18) := by decide +kernel
  refine ⟨_,evening,night,hrun,by simp,hdaemon ▸ hbytes,hlast ▸ hmore,
    hanswered.1 (evening,.hangup 1340056800) ?_ (hdaemon ▸ hcall) ?_⟩
  · refine (List.find?_cons_of_neg fun h => ?_).trans
      (List.find?_cons_of_pos (decide_eq_true (congrArg some hday)))
    exact absurd (hnone.symm.trans (of_decide_eq_true h)).symm (Option.some_ne_none _)
  · rw [hlast,hdaemon,hcount]
    exact BitVec.le_refl _

end Replies

end Flowstatd
