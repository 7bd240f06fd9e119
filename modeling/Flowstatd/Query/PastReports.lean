import Flowstatd.Query.Answers
import Flowstatd.Query.PastDays

/-!
# Days of reports

`main` reads its configuration file and collects for some days. A request for a host on any of them
gets what the exporters have said about that host on that day.
-/

namespace Flowstatd

open Framework Classical

section Reports

variable {localtime : Int → Tm} {base g : Globals} {day : (Int × Fin 12 × Nat) × List Flow} {p : Nat}

theorem Globals.Reports.networks (h : g.Reports localtime base day) :
    g.myNet = base.myNet ∧ g.nets = base.nets ∧ g.nSubnet = base.nSubnet ∧
      g.sumIpCount = base.sumIpCount := by
  rw [← h.frame]
  exact ⟨rfl,rfl,rfl,rfl⟩

theorem Globals.Reports.getByIP (h : g.Reports localtime base day) (hprefixed : OnePrefix base.nets p)
    (hempty : base.ipTable = List.replicate (addressCount base.nets) HostFlow.zero)
    (whitelist : Whitelist) (ip : String) (isShowAll : Bool)
    (hshown : hiddenBy whitelist isShowAll (inetAddr ip) = false) :
    Flowstatd.getByIP g whitelist ip isShowAll = some
      (if inetAddr ip ∈ hosts base.nets then
        dayReport localtime day.1 base.myNet (hosts base.nets) day.2 ip
      else ⟨retInfo .noData,none,none,none⟩) := by
  obtain ⟨hmyNet,hnets,-,-⟩ := h.networks
  exact getByIP_day hprefixed hempty hmyNet hnets h.length h.grown whitelist ip isShowAll hshown

end Reports

/-- The text is for the date: `today`, or one that `strptime` reads. -/
def Surroundings.Names (host : Surroundings) (today date : Int × Fin 12 × Nat) (text : String) :
    Prop :=
  if date = today then sameIgnoringCase text "today" = true
  else sameIgnoringCase text "today" = false ∧ host.strptime text = some date

/-- The member of the response that says which day it is about. -/
def Surroundings.dateMember (host : Surroundings) (g : Globals) (today date : Int × Fin 12 × Nat) :
    DateMember :=
  if date = today then .datetime (host.strftime g.localtm) else .date (dateText date)

/-- The request has a command, and a text for the date. -/
structure Requests (host : Surroundings) (jsonRoot : Json) (name cmd text : String)
    (isShowAll : Bool) : Prop where
  command : jsonRoot.member? "command" = some (.string cmd)
  name : sameIgnoringCase cmd name = true
  date : jsonRoot.member? "date" = some (.string text)
  showAll : parseShowAll host jsonRoot = .ok isShowAll

/-- The reply with the answer for a host. -/
def flowReply (cmd : String) (member : DateMember) (r : IpResponse) : Reply :=
  ⟨true,⟨r.info,some cmd,some member,r.ip,r.total,none,none,r.data.map .hours⟩⟩

section Commands

variable {qsort : List HostFlow → List HostFlow} {host : Surroundings} {g g' : Globals}
  {whitelist : Whitelist} {jsonRoot : Json} {name cmd text : String} {isShowAll : Bool}
  {member : DateMember}

theorem Requests.parseCmd (h : Requests host jsonRoot name cmd text isShowAll)
    (hday : parseDate host g text = .ok (.globals g' member)) :
    Flowstatd.parseCmd qsort host g whitelist (some jsonRoot) =
      runCommand qsort g' whitelist jsonRoot isShowAll cmd
        ⟨retInfo .invalidCommand,some cmd,some member,none,none,none,none,none⟩ := by
  rw [parseCmd_of_day qsort whitelist h.command h.date hday,h.showAll]
  rfl

theorem Requests.getFlow (h : Requests host jsonRoot "getFlow" cmd text isShowAll)
    (hday : parseDate host g text = .ok (.globals g' member)) {ip : String}
    (hip : jsonRoot.member? "ip" = some (.string ip)) {r : IpResponse}
    (hanswer : getByIP g' whitelist ip isShowAll = some r) :
    Flowstatd.parseCmd qsort host g whitelist (some jsonRoot) = .ok (flowReply cmd member r) := by
  have htext : jsonRoot.member? "ip" >>= Json.string? = some ip := by simp [hip]
  rw [h.parseCmd hday,runCommand,if_pos h.name]
  simp only [htext,hanswer]
  rfl

end Commands

/-- The files of these days are found by their names and have their whole tables. -/
structure Findable (savePrefix : List Char) (g : Globals) (days : List Day) : Prop where
  short : savePrefix.length ≤ 71
  years : ∀ d ∈ days, FourDigits d.date
  oneCall : hostflowSize * g.sumIpCount.toNat < 2 ^ 31

section Days

variable {localtime : Int → Tm} {config : ConfigHost} {jsonConfig : Json} {p : Nat}

theorem OnePrefixEntries.labelled {qsort : List Subnet → List Subnet} {localtm : Tm} {g : Globals}
    (h : OnePrefixEntries (entriesRead config jsonConfig) p) (hqsort : Qsorts rcvNetListCmp qsort)
    (hmain : Flowstatd.mainGlobals config qsort localtm (some jsonConfig) = some g) :
    g.Labelled := by
  have hrange : PrefixesInRange config jsonConfig := by
    intro e he addr maskBits hparse
    have hp := h.prefixLength
    rw [(h.stated e he addr maskBits hparse).1]
    omega
  have hbooted := mainGlobals_booted hqsort.perm hrange hmain
  have hstart : Reachable (fun _ => True) (fun _ => g.localtm) (startup _ 0 (fun _ => 0) g) :=
    .start 0 (fun _ => 0) trivial hbooted
  exact hstart.labelled

variable {host : Surroundings} {jsonRoot : Json} {cmd text ip : String} {isShowAll : Bool}
  {whitelist : Whitelist} {g : Globals} {t : Session} {days : List Day} {date : Int × Fin 12 × Nat}
  {flows : List Flow} {savePrefix : List Char}

/-- On the last day a request for any of the days looks at a table with the reports of that day. -/
theorem CollectedDays.selected (h : CollectedDays zlibLength localtime g days t)
    (hforward : HoursForward localtime) (hlabelled : g.Labelled) (hreset : resetTable g = g)
    (hday : (date,flows) ∈ dayFlows (fun _ _ => none) days) (hfind : Findable savePrefix g days)
    (hreads : host.Reads savePrefix t) (hnames : host.Names (localtime t.clock).date date text) :
    ∃ saved g', saved.Reports localtime g (date,flows) ∧ ShowsSaved saved g' ∧
      parseDate host t.daemon.globals text = .ok (.globals g'
        (host.dateMember t.daemon.globals (localtime t.clock).date date)) := by
  obtain ⟨last,rs,htoday,hlast,hfiles,heq⟩ := h.archived hforward hlabelled hreset
  rw [htoday,Surroundings.Names] at hnames
  rw [htoday,Surroundings.dateMember]
  have hdates : ((last :: rs).map Prod.fst).Nodup := by
    rw [heq,List.map_reverse,List.nodup_reverse,dayFlows_dates]
    exact h.distinct
  obtain ⟨hother,hdistinct⟩ := List.nodup_cons.mp hdates
  have hyears : ∀ r ∈ last :: rs, FourDigits r.1 := by
    intro r hr
    rw [heq,List.mem_reverse] at hr
    have hdate := List.mem_map_of_mem (f := Prod.fst) hr
    rw [dayFlows_dates] at hdate
    obtain ⟨d,hd,hsame⟩ := List.mem_map.mp hdate
    exact hsame ▸ hfind.years d hd
  rw [← List.mem_reverse,← heq] at hday
  rcases List.mem_cons.mp hday with rfl | hday
  · rw [if_pos rfl] at hnames ⊢
    exact ⟨_,_,hlast,.refl _,by rw [parseDate,if_pos hnames]⟩
  · have hne : date ≠ last.1 := fun hsame => hother (hsame ▸ List.mem_map_of_mem hday)
    rw [if_neg hne] at hnames ⊢
    obtain ⟨f,hfound,-,saved,hcontents,hreports⟩ := find_archived hfiles hdistinct hday
    have hfour : ∀ f ∈ t.files, FourDigits f.date := by
      intro f hf
      obtain ⟨r,hr,hsame,-⟩ := archived_of_mem hfiles hf
      exact hsame ▸ hyears r (List.mem_cons_of_mem _ hr)
    have hrecord : host.record date = some (exportRecordBy zlibLength saved) := by
      rw [hreads,findNamed_eq (Nat.lt_of_le_of_lt hfind.short (by decide)) hfour
        (hyears _ (List.mem_cons_of_mem _ hday)),if_pos hfind.short,hfound,Option.map_some,hcontents]
    have hsum := hreports.networks.2.2.2
    have hcount : t.daemon.globals.sumIpCount = saved.sumIpCount :=
      hlast.networks.2.2.2.trans hsum.symm
    obtain ⟨g',hselected,hshows⟩ := parseDate_saved host hnames.1 hnames.2 hrecord
      hlast.labelled.sizes hreports.labelled.sizes (hsum ▸ hfind.oneCall)
      (hcount ▸ BitVec.le_refl _)
    exact ⟨saved,g',hreports,hshows,hselected⟩

/-- From the configuration file over some days of datagrams to the reply for any of them. -/
theorem days_answered {qsort : List Subnet → List Subnet} {localtm : Tm}
    (hqsort : Qsorts rcvNetListCmp qsort)
    (hentries : OnePrefixEntries (entriesRead config jsonConfig) p)
    (hmain : mainGlobals config qsort localtm (some jsonConfig) = some g)
    (hforward : HoursForward localtime) (h : CollectedDays zlibLength localtime g days t)
    (hday : (date,flows) ∈ dayFlows (fun _ _ => none) days)
    (sortHosts : List HostFlow → List HostFlow) (hfind : Findable savePrefix g days)
    (hreads : host.Reads savePrefix t)
    (hasks : Requests host jsonRoot "getFlow" cmd text isShowAll)
    (hip : jsonRoot.member? "ip" = some (.string ip))
    (hnames : host.Names (localtime t.clock).date date text)
    (hshown : hiddenBy whitelist isShowAll (inetAddr ip) = false) :
    parseCmd sortHosts host t.daemon.globals whitelist (some jsonRoot) =
      .ok (flowReply cmd (host.dateMember t.daemon.globals (localtime t.clock).date date)
        (if inetAddr ip ∈ statedHosts (entriesRead config jsonConfig) p then
          dayReport localtime date (storedMyNet config jsonConfig)
            (statedHosts (entriesRead config jsonConfig) p) flows ip
        else ⟨retInfo .noData,none,none,none⟩)) := by
  obtain ⟨hprefixed,hhosts,hmyNet,hreset,htable⟩ := hentries.mainGlobals hqsort hmain
  obtain ⟨saved,g',hreports,hshows,hselected⟩ :=
    h.selected hforward (hentries.labelled hqsort hmain) hreset hday hfind hreads hnames
  rw [← hhosts,← hmyNet]
  refine hasks.getFlow hselected hip ?_
  rw [hshows.byIP]
  exact hreports.getByIP hprefixed htable whitelist ip isShowAll hshown

end Days

section Shipped

def flowRequest (ip text : String) : Json :=
  .object [("command",.string "getFlow"),("date",.string text),("ip",.string ip)]

/-- Two datagrams on the 18th, the second one before midnight. -/
def juneEighteenth : List Export :=
  [shippedV5 1340000000 1340000100,shippedV5 1340060000 1340060500]

/-- The 18th, and a datagram after midnight. -/
def juneDays : List Day :=
  [⟨(juneClock 1340000000).date,juneEighteenth⟩,
    ⟨(juneClock 1340064000).date,[shippedV5 1340064000 1340064100]⟩]

private theorem juneDays_chain : juneDays.IsChain (Day.Before juneClock) :=
  List.isChain_pair.mpr ⟨[shippedV5 1340000000 1340000100],shippedV5 1340060000 1340060500,
    shippedV5 1340064000 1340064100,[],rfl,rfl,by decide +kernel,by decide +kernel,by decide +kernel⟩

private theorem juneDays_dates :
    ∀ d ∈ juneDays, ∀ x ∈ d.exports, (juneClock x.now).date = d.date := by
  simp only [juneDays,juneEighteenth,List.forall_mem_cons,List.not_mem_nil,false_implies,
    implies_true,and_true]
  decide +kernel

/-- A daemon with the shipped configuration handles these days. -/
theorem juneDays_collected {qsort : List Subnet → List Subnet} {localtm : Tm} {g : Globals}
    (hmain : mainGlobals plainHost qsort localtm (some (shippedConfig shippedNetworks)) = some g) :
    ∃ t, CollectedDays zlibLength juneClock g juneDays t ∧ (juneClock t.clock).date = (112,5,19) ∧
      Findable "/data/flowstatd/data".toList g juneDays := by
  have hfrom (e : Exporter) (he : sentBy e (juneDays.flatMap Day.exports) ≠ []) :
      e ∈ (∅ : Set Exporter) := absurd rfl he
  have hwell (e : Exporter) : WellAnnounced (fun _ => none)
      (sentBy e (juneDays.flatMap Day.exports)) := trivial
  obtain ⟨t,ht⟩ := exists_collects zlibLength juneClock
    (s := ⟨startup juneClock 1340000000 (fun _ => 0) g,1340000000,[],[],true⟩) rfl
    (Announced.held_none _) (Set.injOn_empty _) hfrom hwell
    (by simp [juneDays,juneEighteenth,shippedV5]) (by simp [juneDays,juneEighteenth,shippedV5])
  have hlast : Collects zlibLength juneClock
      ⟨startup juneClock 1340000000 (fun _ => 0) g,1340000000,[],[],true⟩
      (juneEighteenth ++ [shippedV5 1340064000 1340064100]) t := ht
  have htoday : (juneClock t.clock).date = (112,5,19) := by
    rw [hlast.clock]
    decide +kernel
  have hyears : ∀ d ∈ juneDays, FourDigits d.date := by
    simp only [juneDays,List.forall_mem_cons,List.not_mem_nil,false_implies,implies_true,and_true]
    exact ⟨⟨by decide +kernel,by decide +kernel⟩,⟨by decide +kernel,by decide +kernel⟩⟩
  have hcall : hostflowSize * g.sumIpCount.toNat < 2 ^ 31 := by
    rw [shippedGlobals_sumIpCount hmain]
    decide
  exact ⟨t,⟨⟨1340000000,fun _ => 0,rfl,ht⟩,juneDays_chain,juneDays_dates,by decide +kernel,
    fun e he => absurd rfl he,hwell⟩,htoday,by decide,hyears,hcall⟩

theorem juneHost_names {savePrefix : List Char} {t : Session}
    (htoday : (juneClock t.clock).date = (112,5,19)) :
    (juneHost savePrefix t).Names (juneClock t.clock).date (112,5,18) "2012-06-18" := by
  rw [Surroundings.Names,htoday,if_neg (by decide)]
  exact ⟨by decide,rfl⟩

theorem juneEighteenth_day : ((112,5,18),exportedFlows (fun _ _ => none) juneEighteenth) ∈
    dayFlows (fun _ _ => none) juneDays := by
  have hdate : (juneClock 1340000000).date = (112,5,18) := by decide +kernel
  rw [← hdate]
  exact List.mem_cons_self

theorem juneEighteenth_flows : ∀ f ∈ exportedFlows (fun _ _ => none) juneEighteenth,
    f.srcAddr = inetAddr "140.123.211.1" ∧ f.dstAddr = 0x08080808 ∧
      f.OnDay juneClock (112,5,18) := by
  decide +kernel

/-- 140.123.211.1 has sent 6000000 bytes. -/
theorem juneEighteenth_hostTotal :
    hostTotal juneClock (112,5,18) (storedMyNet plainHost (shippedConfig shippedNetworks))
      (statedHosts (entriesRead plainHost (shippedConfig shippedNetworks)) 24)
      (exportedFlows (fun _ _ => none) juneEighteenth) (inetAddr "140.123.211.1") = 6000000 := by
  rw [shipped_hostTotal juneEighteenth_flows]
  decide +kernel

/-- The shipped configuration, and on the 19th a question about 140.123.211.1 on the 18th. -/
theorem days_answered_shipped :
    ∃ qsort g t host, Qsorts rcvNetListCmp qsort ∧
      mainGlobals plainHost qsort ⟨112,5,18,6⟩ (some (shippedConfig shippedNetworks)) = some g ∧
      CollectedDays zlibLength juneClock g juneDays t ∧
      host = juneHost "/data/flowstatd/data".toList t ∧
      parseCmd insertionQsort host t.daemon.globals (fun _ => 0)
          (some (flowRequest "140.123.211.1" "2012-06-18")) =
        .ok (flowReply "getFlow" (host.dateMember t.daemon.globals (112,5,19) (112,5,18))
          (dayReport juneClock (112,5,18) (storedMyNet plainHost (shippedConfig shippedNetworks))
            (statedHosts (entriesRead plainHost (shippedConfig shippedNetworks)) 24)
            (exportedFlows (fun _ _ => none) juneEighteenth) "140.123.211.1")) ∧
      hostTotal juneClock (112,5,18) (storedMyNet plainHost (shippedConfig shippedNetworks))
        (statedHosts (entriesRead plainHost (shippedConfig shippedNetworks)) 24)
        (exportedFlows (fun _ _ => none) juneEighteenth) (inetAddr "140.123.211.1") = 6000000 := by
  obtain ⟨qsort,hqsort⟩ := exists_qsorts rcvNetListCmp
  obtain ⟨g,hmain⟩ := exists_shippedGlobals qsort ⟨112,5,18,6⟩
  obtain ⟨t,ht,htoday,hfind⟩ := juneDays_collected hmain
  have hasks : Requests (juneHost "/data/flowstatd/data".toList t)
      (flowRequest "140.123.211.1" "2012-06-18") "getFlow" "getFlow" "2012-06-18" false :=
    ⟨rfl,by decide,rfl,rfl⟩
  have hshown : hiddenBy (fun _ => 0) false (inetAddr "140.123.211.1") = false := by
    decide +kernel
  have hanswer := days_answered hqsort shippedConfig_onePrefix hmain juneClock_forward ht
    juneEighteenth_day insertionQsort hfind (fun _ => rfl) hasks rfl (juneHost_names htoday) hshown
  rw [if_pos shippedConfig_states,htoday] at hanswer
  exact ⟨qsort,g,t,_,hqsort,hmain,ht,rfl,hanswer,juneEighteenth_hostTotal⟩

end Shipped

end Flowstatd
