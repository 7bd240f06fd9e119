import Flowstatd.Framework.Text
import Flowstatd.Query.PastDate

/-!
# Requests

`parseCmd` from the parsed request to the response. The integers of a request are 64 bits wide;
they go through an `int` and an `unsigned` parameter before they are looked at.
-/

namespace Flowstatd

open Framework

/-- What a child can end of before it answers. -/
inductive Fault where
  | outsideTable
  | badRecord
  | secretKey
deriving DecidableEq

/-- What the child finds outside of the globals. `secretKey` is the string at the address that
`parseCmd` compares with: `command.c` declares a pointer where `flowstatd.c` defines an array, and
there may be no string at the address that the first bytes of the key make. -/
structure Surroundings where
  strftime : Tm → String
  strptime : String → Option (Int × Fin 12 × Nat)
  record : Int × Fin 12 × Nat → Option (List Byte)
  heap : Nat → Byte
  tmpVal : U32
  secretKey : Option String

/-- The member `datetime` or `date` of a response. -/
inductive DateMember where
  | datetime (text : String)
  | date (text : String)
deriving DecidableEq

/-- The member `data` of a response. -/
inductive DataMember where
  | hours (rows : List HourRow)
  | hosts (rows : List HostRow)
deriving DecidableEq

structure Response where
  info : RetInfo
  command : Option String
  date : Option DateMember
  ip : Option String
  total : Option Counter
  overValue : Option U32
  limit : Option U32
  data : Option DataMember
deriving DecidableEq

/-- The return value of `parseCmd` and the response it has sent. -/
structure Reply where
  ret : Bool
  response : Response
deriving DecidableEq

section Command

/-- `%04d-%02d-%02d`. -/
def dateText (date : Int × Fin 12 × Nat) : String :=
  zeroPadded 4 (date.1 + 1900).toNat ++ "-" ++ zeroPadded 2 (date.2.1 + 1) ++ "-" ++
    zeroPadded 2 date.2.2

/-- What comes of the date in a request: the globals to look at, or the error to report. -/
inductive SelectedDay where
  | globals (g : Globals) (member : DateMember)
  | error (errorCode : ErrorCode)

def parseDate (host : Surroundings) (g : Globals) (date : String) : Except Fault SelectedDay :=
  if sameIgnoringCase date "today" then .ok (.globals g (.datetime (host.strftime g.localtm)))
  else
    match host.strptime date with
    | none => .ok (.error .invalidCommand)
    | some tm =>
      match host.record tm with
      | none => .ok (.error .noData)
      | some file =>
        match importRecordBy zlibLength host.heap host.tmpVal g file with
        | none => .error .badRecord
        | some g => .ok (.globals g (.date (dateText tm)))

def parseShowAll (host : Surroundings) (jsonRoot : Json) : Except Fault Bool :=
  match jsonRoot.member? "showAll" >>= Json.string? with
  | none => .ok false
  | some showAll =>
    match host.secretKey with
    | none => .error .secretKey
    | some secretKey => .ok (showAll = secretKey)

/-- A query that reads outside of the table gives no response. -/
def insideTable {α : Type} : Option α → Except Fault α
  | none => .error .outsideTable
  | some a => .ok a

/-- The dispatch on the command. -/
def runCommand (qsort : List HostFlow → List HostFlow) (g : Globals) (whitelist : Whitelist)
    (jsonRoot : Json) (isShowAll : Bool) (cmd : String) (jsonResp : Response) :
    Except Fault Reply :=
  if sameIgnoringCase cmd "getFlow" then
    match jsonRoot.member? "ip" >>= Json.string? with
    | none => .ok ⟨false,jsonResp⟩
    | some ip => (insideTable (getByIP g whitelist ip isShowAll)).map fun r =>
      ⟨true,{ jsonResp with
        info := r.info
        ip := r.ip
        total := r.total
        data := r.data.map .hours }⟩
  else if sameIgnoringCase cmd "showOverList" then
    match jsonRoot.member? "overValue" >>= Json.integer? with
    | none => .ok ⟨false,jsonResp⟩
    | some value =>
      let overValue : U32 := value.setWidth 32
      (insideTable (getByFlow qsort g whitelist overValue isShowAll)).map fun r =>
        ⟨true,{ jsonResp with
          info := r.info
          overValue := r.limit
          data := r.data.map .hosts }⟩
  else if sameIgnoringCase cmd "showTopList" then
    match jsonRoot.member? "limit" >>= Json.integer? with
    | none => .ok ⟨false,jsonResp⟩
    | some value =>
      let limit : U32 := value.setWidth 32
      (insideTable (getByTopN qsort g whitelist limit isShowAll)).map fun r =>
        ⟨true,{ jsonResp with
          info := r.info
          limit := r.limit
          data := r.data.map .hosts }⟩
  else .ok ⟨false,jsonResp⟩

/-- `parseCmd` on what `json_loads` makes of the request. -/
def parseCmd (qsort : List HostFlow → List HostFlow) (host : Surroundings) (g : Globals)
    (whitelist : Whitelist) (jsonRoot : Option Json) : Except Fault Reply :=
  let jsonResp : Response := ⟨retInfo .invalidCommand,none,none,none,none,none,none,none⟩
  match jsonRoot with
  | none => .ok ⟨false,jsonResp⟩
  | some jsonRoot =>
    if !jsonRoot.isObject then .ok ⟨false,jsonResp⟩
    else
      match jsonRoot.member? "command" >>= Json.string? with
      | none => .ok ⟨false,jsonResp⟩
      | some cmd =>
        let jsonResp := { jsonResp with command := some cmd }
        match jsonRoot.member? "date" >>= Json.string? with
        | none => .ok ⟨false,jsonResp⟩
        | some date => do
          match ← parseDate host g date with
          | .error errorCode => .ok ⟨false,{ jsonResp with info := retInfo errorCode }⟩
          | .globals g member =>
            let isShowAll ← parseShowAll host jsonRoot
            runCommand qsort g whitelist jsonRoot isShowAll cmd
              { jsonResp with date := some member }

end Command

section Answers

variable {qsort : List HostFlow → List HostFlow} {host : Surroundings} {g g' : Globals}
  {whitelist : Whitelist} {jsonRoot : Json} {isShowAll : Bool} {cmd : String}

/-- The request is for a command. -/
def Asks (jsonRoot : Json) (name : String) : Prop :=
  ∃ cmd, jsonRoot.member? "command" = some (.string cmd) ∧ sameIgnoringCase cmd name = true

/-- The date of the request selects the globals `g'`. -/
def AcceptsDate (host : Surroundings) (g : Globals) (jsonRoot : Json) (g' : Globals) : Prop :=
  ∃ date member, jsonRoot.member? "date" = some (.string date) ∧
    parseDate host g date = .ok (.globals g' member)

/-- The response reports success and has data. -/
def Response.Succeeds (r : Response) : Prop := r.info.retCode = 0 ∧ r.data.isSome

/-- The response reports an error and has no data. -/
def Response.Fails (r : Response) : Prop := r.info.retCode ≠ 0 ∧ r.data = none

/-- The request is one that has an answer: for a host, or for a list with an integer. -/
def HasAnswer (jsonRoot : Json) : Prop :=
  Asks jsonRoot "getFlow" ∨
    (Asks jsonRoot "showTopList" ∧ ∃ limit, jsonRoot.member? "limit" = some (.integer limit)) ∨
    (Asks jsonRoot "showOverList" ∧ ∃ value, jsonRoot.member? "overValue" = some (.integer value))

/-- The answer is the one for the integers that the request contains. -/
structure Response.Faithful (jsonRoot : Json) (sumIpCount : U32) (r : Response) : Prop where
  topList : ∀ limit, Asks jsonRoot "showTopList" → jsonRoot.member? "limit" = some (.integer limit) →
    (r.Succeeds ↔ 0 < limit.toInt ∧ limit.toInt < sumIpCount.toNat) ∧
      ∀ echo, r.limit = some echo → (echo.toNat : Int) = limit.toInt
  overList : ∀ value, Asks jsonRoot "showOverList" →
    jsonRoot.member? "overValue" = some (.integer value) →
      (r.Succeeds ↔ 0 < value.toInt) ∧
        ∀ echo, r.overValue = some echo → (echo.toNat : Int) = value.toInt
  others : r.Fails ∨ r.Succeeds ∧ HasAnswer jsonRoot

/-- Nothing in the request is misread. The limit may have any value whose low 32 bits the check on
`topN` rejects; the quota has to be rejected for what it is. -/
structure ReadRight (host : Surroundings) (jsonRoot : Json) (sumIpCount : U32) : Prop where
  showAll : (∃ cmd, jsonRoot.member? "command" = some (.string cmd)) →
    host.secretKey ≠ none ∨ ∀ showAll, jsonRoot.member? "showAll" ≠ some (.string showAll)
  topList : ∀ limit : BitVec 64, Asks jsonRoot "showTopList" →
    jsonRoot.member? "limit" = some (.integer limit) → 0 < limit.setWidth 32 →
      limit.setWidth 32 < sumIpCount → 0 ≤ limit.toInt ∧ limit.toInt < 2 ^ 32
  overList : ∀ value : BitVec 64, Asks jsonRoot "showOverList" →
    jsonRoot.member? "overValue" = some (.integer value) →
      if value.setWidth 32 = 0 then value.toInt ≤ 0
      else 0 ≤ value.toInt ∧ value.toInt < 2 ^ 32

/-- An integer survives the way through the `int` exactly when it is an `unsigned` value. -/
theorem low_word_iff (v : BitVec 64) :
    ((v.setWidth 32).toNat : Int) = v.toInt ↔ 0 ≤ v.toInt ∧ v.toInt < 2 ^ 32 := by
  have hlt := v.isLt
  rw [BitVec.toNat_setWidth,BitVec.toInt_eq_toNat_cond]
  split_ifs <;> omega

theorem getByIP_answer {ip : String} {r : IpResponse}
    (h : getByIP g whitelist ip isShowAll = some r) :
    (r.info.retCode = 0 ∧ r.data.isSome) ∨ (r.info.retCode ≠ 0 ∧ r.data = none) := by
  simp only [getByIP] at h
  by_cases hnet : isOurNet g.nets (inetAddr ip) = true
  · rw [if_pos hnet] at h
    by_cases hidx : 0 ≤ getIPIdx g.myNet g.nets (inetAddr ip)
    · rw [if_pos hidx] at h
      obtain ⟨e,_,rfl⟩ := Option.map_eq_some_iff.mp h
      exact .inl ⟨rfl,rfl⟩
    · rw [if_neg hidx] at h
      exact absurd h.symm (Option.some_ne_none _)
  · rw [if_neg hnet] at h
    obtain rfl := Option.some.inj h
    exact .inr ⟨by decide,rfl⟩

theorem getByFlow_answer {overMB : U32} {r : ListResponse}
    (h : getByFlow qsort g whitelist overMB isShowAll = some r) :
    if overMB = 0 then r = ⟨retInfo .invalidParam,none,none⟩
    else ∃ rows, r = ⟨retInfo .ok,some overMB,some rows⟩ := by
  have hzero : overMB ≤ 0 ↔ overMB = 0 := by
    rw [BitVec.le_def,← BitVec.toNat_inj]
    exact Nat.le_zero
  simp only [getByFlow,hzero] at h
  split_ifs at h ⊢
  · exact (Option.some.inj h).symm
  · obtain ⟨rows,_,rfl⟩ := Option.map_eq_some_iff.mp h
    exact ⟨rows,rfl⟩

theorem getByTopN_answer {topN : U32} {r : ListResponse}
    (h : getByTopN qsort g whitelist topN isShowAll = some r) :
    if 0 < topN ∧ topN < g.sumIpCount then ∃ rows, r = ⟨retInfo .ok,some topN,some rows⟩
    else r = ⟨retInfo .invalidParam,none,none⟩ := by
  have haccepted : ¬(topN ≤ 0 ∨ topN ≥ g.sumIpCount) ↔ 0 < topN ∧ topN < g.sumIpCount := by
    simp only [not_or,BitVec.not_le,ge_iff_le]
  rw [getByTopN] at h
  by_cases hok : 0 < topN ∧ topN < g.sumIpCount
  · rw [if_pos hok]
    rw [if_neg (haccepted.mpr hok)] at h
    obtain ⟨rows,_,rfl⟩ := Option.map_eq_some_iff.mp h
    exact ⟨rows,rfl⟩
  · rw [if_neg hok]
    rw [if_pos (not_not.mp fun hno => hok (haccepted.mp hno))] at h
    exact (Option.some.inj h).symm

theorem insideTable_eq_ok {α : Type} {o : Option α} {a : α} :
    insideTable o = .ok a ↔ o = some a := by
  cases o <;> simp [insideTable]

private theorem invalidParam_ne : (retInfo .invalidParam).retCode ≠ 0 := by decide

private theorem invalidCommand_ne : (retInfo .invalidCommand).retCode ≠ 0 := by decide

private theorem map_eq_ok {α β ε : Type} {f : α → β} {x : Except ε α} {b : β} :
    x.map f = .ok b ↔ ∃ a, x = .ok a ∧ f a = b := by
  cases x <;> simp [Except.map]

private theorem map_insideTable_error {α β : Type} {f : α → β} {o : Option α} {fault : Fault}
    (h : (insideTable o).map f = .error fault) : fault = .outsideTable := by
  cases o with
  | none => exact (Except.error.inj h).symm
  | some a => cases h

/-- A command ends without an answer only where it reads outside of the table. -/
theorem runCommand_fault {jsonResp : Response} {fault : Fault}
    (h : runCommand qsort g whitelist jsonRoot isShowAll cmd jsonResp = .error fault) :
    fault = .outsideTable := by
  rw [runCommand] at h
  split_ifs at h
  · cases hmember : jsonRoot.member? "ip" >>= Json.string? with
    | none => simp [hmember] at h
    | some ip => exact map_insideTable_error (by simpa only [hmember] using h)
  · cases hmember : jsonRoot.member? "overValue" >>= Json.integer? with
    | none => simp [hmember] at h
    | some value => exact map_insideTable_error (by simpa only [hmember] using h)
  · cases hmember : jsonRoot.member? "limit" >>= Json.integer? with
    | none => simp [hmember] at h
    | some value => exact map_insideTable_error (by simpa only [hmember] using h)

theorem runCommand_topList {jsonResp : Response} {reply : Reply}
    (h : runCommand qsort g whitelist jsonRoot isShowAll cmd jsonResp = .ok reply)
    (hcmd : sameIgnoringCase cmd "showTopList" = true) {limit : BitVec 64}
    (hlimit : jsonRoot.member? "limit" = some (.integer limit)) :
    if 0 < limit.setWidth 32 ∧ limit.setWidth 32 < g.sumIpCount then
      reply.response.Succeeds ∧ reply.response.limit = some (limit.setWidth 32)
    else reply.response.Fails ∧ reply.response.limit = none := by
  have hother (name : String) (hname : sameIgnoringCase "showTopList" name = false) :
      ¬sameIgnoringCase cmd name = true :=
    fun hsame => absurd (sameIgnoringCase_trans hcmd hsame) (by simp [hname])
  have hint : jsonRoot.member? "limit" >>= Json.integer? = some limit := by simp [hlimit]
  rw [runCommand,if_neg (hother "getFlow" (by decide)),if_neg (hother "showOverList" (by decide)),
    if_pos hcmd] at h
  simp only [hint] at h
  obtain ⟨r,hr,rfl⟩ := map_eq_ok.mp h
  have hanswer := getByTopN_answer (insideTable_eq_ok.mp hr)
  split_ifs at hanswer ⊢
  · obtain ⟨rows,rfl⟩ := hanswer
    exact ⟨⟨rfl,rfl⟩,rfl⟩
  · subst hanswer
    exact ⟨⟨invalidParam_ne,rfl⟩,rfl⟩

theorem runCommand_overList {jsonResp : Response} {reply : Reply}
    (h : runCommand qsort g whitelist jsonRoot isShowAll cmd jsonResp = .ok reply)
    (hcmd : sameIgnoringCase cmd "showOverList" = true) {value : BitVec 64}
    (hvalue : jsonRoot.member? "overValue" = some (.integer value)) :
    if value.setWidth 32 = 0 then reply.response.Fails ∧ reply.response.overValue = none
    else reply.response.Succeeds ∧ reply.response.overValue = some (value.setWidth 32) := by
  have hother : ¬sameIgnoringCase cmd "getFlow" = true :=
    fun hsame => absurd (sameIgnoringCase_trans hcmd hsame) (by decide)
  have hint : jsonRoot.member? "overValue" >>= Json.integer? = some value := by simp [hvalue]
  rw [runCommand,if_neg hother,if_pos hcmd] at h
  simp only [hint] at h
  obtain ⟨r,hr,rfl⟩ := map_eq_ok.mp h
  have hanswer := getByFlow_answer (insideTable_eq_ok.mp hr)
  split_ifs at hanswer ⊢
  · subst hanswer
    exact ⟨⟨invalidParam_ne,rfl⟩,rfl⟩
  · obtain ⟨rows,rfl⟩ := hanswer
    exact ⟨⟨rfl,rfl⟩,rfl⟩

/-- Success comes with data and to requests that have an answer only. -/
theorem runCommand_others {jsonResp : Response} (hresp : jsonResp.Fails) {reply : Reply}
    (hcmd : jsonRoot.member? "command" = some (.string cmd))
    (h : runCommand qsort g whitelist jsonRoot isShowAll cmd jsonResp = .ok reply) :
    reply.response.Fails ∨ reply.response.Succeeds ∧ HasAnswer jsonRoot := by
  have hpending (hsame : (.ok ⟨false,jsonResp⟩ : Except Fault Reply) = .ok reply) :
      reply.response.Fails ∨ reply.response.Succeeds ∧ HasAnswer jsonRoot := by
    obtain rfl := Except.ok.inj hsame
    exact .inl hresp
  rw [runCommand] at h
  split_ifs at h with hip hover htop
  · cases hmember : jsonRoot.member? "ip" >>= Json.string? with
    | none => exact hpending (by simpa only [hmember] using h)
    | some ip =>
      simp only [hmember] at h
      obtain ⟨r,hr,rfl⟩ := map_eq_ok.mp h
      rcases getByIP_answer (insideTable_eq_ok.mp hr) with ⟨hcode,hdata⟩ | ⟨hcode,hdata⟩
      · exact .inr ⟨⟨hcode,by simpa using hdata⟩,.inl ⟨cmd,hcmd,hip⟩⟩
      · exact .inl ⟨hcode,by simp [hdata]⟩
  · cases hmember : jsonRoot.member? "overValue" >>= Json.integer? with
    | none => exact hpending (by simpa only [hmember] using h)
    | some value =>
      have hvalue : jsonRoot.member? "overValue" = some (.integer value) := by
        simpa [Option.bind_eq_some_iff] using hmember
      have hanswer := runCommand_overList (by rw [runCommand,if_neg hip,if_pos hover]; exact h)
        hover hvalue
      split_ifs at hanswer
      · exact .inl hanswer.1
      · exact .inr ⟨hanswer.1,.inr (.inr ⟨⟨cmd,hcmd,hover⟩,value,hvalue⟩)⟩
  · cases hmember : jsonRoot.member? "limit" >>= Json.integer? with
    | none => exact hpending (by simpa only [hmember] using h)
    | some value =>
      have hvalue : jsonRoot.member? "limit" = some (.integer value) := by
        simpa [Option.bind_eq_some_iff] using hmember
      have hanswer := runCommand_topList
        (by rw [runCommand,if_neg hip,if_neg hover,if_pos htop]; exact h) htop hvalue
      split_ifs at hanswer
      · exact .inr ⟨hanswer.1,.inr (.inl ⟨⟨cmd,hcmd,htop⟩,value,hvalue⟩)⟩
      · exact .inl hanswer.1
  · exact hpending h

theorem isObject_of_member {name : String} {j : Json} (h : jsonRoot.member? name = some j) :
    jsonRoot.isObject = true := by
  cases jsonRoot with
  | object members => rfl
  | _ => cases h

/-- The command runs on the globals of the day, once the key has been compared. -/
theorem parseCmd_of_day (qsort : List HostFlow → List HostFlow) (whitelist : Whitelist)
    {date : String} {member : DateMember}
    (hcmd : jsonRoot.member? "command" = some (.string cmd))
    (hmember : jsonRoot.member? "date" = some (.string date))
    (hday : parseDate host g date = .ok (.globals g' member)) :
    parseCmd qsort host g whitelist (some jsonRoot) =
      parseShowAll host jsonRoot >>= fun isShowAll =>
        runCommand qsort g' whitelist jsonRoot isShowAll cmd
          ⟨retInfo .invalidCommand,some cmd,some member,none,none,none,none,none⟩ := by
  have hobject := isObject_of_member hcmd
  simp only [parseCmd,hobject,hcmd,hmember,hday,Option.bind_eq_bind,Option.bind_some,Json.string?,
    Bool.not_true,Bool.false_eq_true,if_false]
  rfl

theorem parseCmd_of_accepted (qsort : List HostFlow → List HostFlow) (whitelist : Whitelist)
    (hdate : AcceptsDate host g jsonRoot g')
    (hcmd : jsonRoot.member? "command" = some (.string cmd)) :
    ∃ member, parseCmd qsort host g whitelist (some jsonRoot) =
      parseShowAll host jsonRoot >>= fun isShowAll =>
        runCommand qsort g' whitelist jsonRoot isShowAll cmd
          ⟨retInfo .invalidCommand,some cmd,some member,none,none,none,none,none⟩ := by
  obtain ⟨date,member,hmember,hday⟩ := hdate
  exact ⟨member,parseCmd_of_day qsort whitelist hcmd hmember hday⟩

theorem parseCmd_without_command
    (h : ¬∃ cmd, jsonRoot.member? "command" = some (.string cmd)) :
    parseCmd qsort host g whitelist (some jsonRoot) =
      .ok ⟨false,retInfo .invalidCommand,none,none,none,none,none,none,none⟩ := by
  have hnone : jsonRoot.member? "command" >>= Json.string? = none := by
    refine Option.eq_none_iff_forall_ne_some.mpr fun cmd hcmd => h ⟨cmd,?_⟩
    simpa [Option.bind_eq_some_iff] using hcmd
  simp only [parseCmd,hnone]
  split_ifs <;> rfl

theorem parseShowAll_cases (host : Surroundings) (jsonRoot : Json) :
    (∃ isShowAll, parseShowAll host jsonRoot = .ok isShowAll ∧
      (host.secretKey ≠ none ∨ ∀ showAll, jsonRoot.member? "showAll" ≠ some (.string showAll))) ∨
    (parseShowAll host jsonRoot = .error .secretKey ∧
      ¬(host.secretKey ≠ none ∨ ∀ showAll, jsonRoot.member? "showAll" ≠ some (.string showAll))) := by
  rw [parseShowAll]
  cases hmember : jsonRoot.member? "showAll" >>= Json.string? with
  | none =>
    refine .inl ⟨false,rfl,.inr fun showAll heq => ?_⟩
    simp [heq,Json.string?] at hmember
  | some showAll =>
    have heq : jsonRoot.member? "showAll" = some (.string showAll) := by
      simpa [Option.bind_eq_some_iff] using hmember
    cases hkey : host.secretKey with
    | none => exact .inr ⟨rfl,by simp [heq]⟩
    | some secretKey => exact .inl ⟨_,rfl,.inl (Option.some_ne_none _)⟩

private theorem Response.Fails.not_succeeds {r : Response} (h : r.Fails) : ¬r.Succeeds :=
  fun hok => h.1 hok.1

/-- The answer to a top list is the one for its limit exactly when a limit that the check accepts is
an `unsigned` value. -/
private theorem topList_right_iff {sumIpCount : U32} {limit : BitVec 64} {r : Response}
    (hanswer : if 0 < limit.setWidth 32 ∧ limit.setWidth 32 < sumIpCount then
      r.Succeeds ∧ r.limit = some (limit.setWidth 32) else r.Fails ∧ r.limit = none) :
    ((r.Succeeds ↔ 0 < limit.toInt ∧ limit.toInt < sumIpCount.toNat) ∧
      ∀ echo, r.limit = some echo → (echo.toNat : Int) = limit.toInt) ↔
      (0 < limit.setWidth 32 → limit.setWidth 32 < sumIpCount →
        0 ≤ limit.toInt ∧ limit.toInt < 2 ^ 32) := by
  have hzero : (0 : U32).toNat = 0 := rfl
  have hsum := sumIpCount.isLt
  rw [← low_word_iff]
  split_ifs at hanswer with hok
  · obtain ⟨hsucceeds,hlimit⟩ := hanswer
    constructor
    · exact fun h _ _ => h.2 _ hlimit
    · intro h
      have hvalue := h hok.1 hok.2
      simp only [BitVec.lt_def,hzero] at hok
      refine ⟨iff_of_true hsucceeds ⟨by omega,by omega⟩,fun echo hecho => ?_⟩
      obtain rfl := Option.some.inj (hlimit.symm.trans hecho)
      exact hvalue
  · obtain ⟨hfails,hlimit⟩ := hanswer
    refine iff_of_true ⟨iff_of_false hfails.not_succeeds fun hrange => hok ?_,?_⟩
      fun hpos hlt => absurd ⟨hpos,hlt⟩ hok
    · have hvalue := (low_word_iff limit).mpr ⟨by omega,by omega⟩
      simp only [BitVec.lt_def,hzero]
      exact ⟨by omega,by omega⟩
    · simp [hlimit]

/-- The answer to a list over a quota is the one for the quota exactly when a quota that is zero in
32 bits is no quota, and any other is an `unsigned` value. -/
private theorem overList_right_iff {value : BitVec 64} {r : Response}
    (hanswer : if value.setWidth 32 = 0 then r.Fails ∧ r.overValue = none
      else r.Succeeds ∧ r.overValue = some (value.setWidth 32)) :
    ((r.Succeeds ↔ 0 < value.toInt) ∧
      ∀ echo, r.overValue = some echo → (echo.toNat : Int) = value.toInt) ↔
      if value.setWidth 32 = 0 then value.toInt ≤ 0
      else 0 ≤ value.toInt ∧ value.toInt < 2 ^ 32 := by
  split_ifs at hanswer ⊢ with hnone
  · obtain ⟨hfails,hover⟩ := hanswer
    simp [hfails.not_succeeds,hover]
  · obtain ⟨hsucceeds,hover⟩ := hanswer
    have hne : (value.setWidth 32).toNat ≠ 0 := fun h0 => hnone (BitVec.eq_of_toNat_eq h0)
    rw [← low_word_iff]
    constructor
    · exact fun h => h.2 _ hover
    · intro hvalue
      refine ⟨iff_of_true hsucceeds (by omega),fun echo hecho => ?_⟩
      obtain rfl := Option.some.inj (hover.symm.trans hecho)
      exact hvalue

/-- A response to a command is the one for the integers of the request exactly when these are read
right. -/
private theorem faithful_iff {jsonResp : Response} (hresp : jsonResp.Fails) {reply : Reply}
    (hcmd : jsonRoot.member? "command" = some (.string cmd))
    (h : runCommand qsort g whitelist jsonRoot isShowAll cmd jsonResp = .ok reply)
    (hkey : host.secretKey ≠ none ∨ ∀ showAll, jsonRoot.member? "showAll" ≠ some (.string showAll)) :
    reply.response.Faithful jsonRoot g.sumIpCount ↔ ReadRight host jsonRoot g.sumIpCount := by
  have hsame {name : String} (hasks : Asks jsonRoot name) : sameIgnoringCase cmd name = true := by
    obtain ⟨cmd',hcmd',hname⟩ := hasks
    obtain rfl : cmd = cmd' := by simpa [hcmd] using hcmd'
    exact hname
  have htop {limit : BitVec 64} (hasks : Asks jsonRoot "showTopList")
      (hlimit : jsonRoot.member? "limit" = some (.integer limit)) :=
    topList_right_iff (runCommand_topList h (hsame hasks) hlimit)
  have hover {value : BitVec 64} (hasks : Asks jsonRoot "showOverList")
      (hvalue : jsonRoot.member? "overValue" = some (.integer value)) :=
    overList_right_iff (runCommand_overList h (hsame hasks) hvalue)
  constructor
  · intro hfaithful
    exact ⟨fun _ => hkey,
      fun limit hasks hlimit => (htop hasks hlimit).mp (hfaithful.topList limit hasks hlimit),
      fun value hasks hvalue => (hover hasks hvalue).mp (hfaithful.overList value hasks hvalue)⟩
  · intro hread
    exact ⟨fun limit hasks hlimit => (htop hasks hlimit).mpr (hread.topList limit hasks hlimit),
      fun value hasks hvalue => (hover hasks hvalue).mpr (hread.overList value hasks hvalue),
      runCommand_others hresp hcmd h⟩

/-- A request with a good date, whose scans stay inside the table, is answered for the integers in
it exactly when they are read right. -/
theorem requests_answered_iff (hdate : AcceptsDate host g jsonRoot g')
    (hinside : parseCmd qsort host g whitelist (some jsonRoot) ≠ .error .outsideTable) :
    (∃ reply, parseCmd qsort host g whitelist (some jsonRoot) = .ok reply ∧
      reply.response.Faithful jsonRoot g'.sumIpCount) ↔
      ReadRight host jsonRoot g'.sumIpCount := by
  by_cases hcommand : ∃ cmd, jsonRoot.member? "command" = some (.string cmd)
  · obtain ⟨cmd,hcmd⟩ := hcommand
    obtain ⟨member,hparse⟩ := parseCmd_of_accepted qsort whitelist hdate hcmd
    have hpending : Response.Fails
        ⟨retInfo .invalidCommand,some cmd,some member,none,none,none,none,none⟩ :=
      ⟨invalidCommand_ne,rfl⟩
    rw [hparse] at hinside ⊢
    rcases parseShowAll_cases host jsonRoot with ⟨isShowAll,hshow,hkey⟩ | ⟨hshow,hnokey⟩
    · rw [hshow] at hinside ⊢
      change runCommand qsort g' whitelist jsonRoot isShowAll cmd _ ≠ _ at hinside
      change (∃ reply, runCommand qsort g' whitelist jsonRoot isShowAll cmd _ = _ ∧ _) ↔ _
      cases hrun : runCommand qsort g' whitelist jsonRoot isShowAll cmd
          ⟨retInfo .invalidCommand,some cmd,some member,none,none,none,none,none⟩ with
      | error fault => exact absurd (hrun.trans (congrArg _ (runCommand_fault hrun))) hinside
      | ok reply =>
        rw [← faithful_iff hpending hcmd hrun hkey]
        constructor
        · rintro ⟨reply',heq,hfaithful⟩
          exact Except.ok.inj heq ▸ hfaithful
        · exact fun hfaithful => ⟨reply,rfl,hfaithful⟩
    · rw [hshow]
      refine iff_of_false ?_ fun hread => hnokey (hread.showAll ⟨cmd,hcmd⟩)
      rintro ⟨reply,heq,-⟩
      exact absurd heq (by simp [bind,Except.bind])
  · have hnone (name : String) : ¬Asks jsonRoot name :=
      fun ⟨cmd,hcmd,_⟩ => hcommand ⟨cmd,hcmd⟩
    refine iff_of_true ?_ ⟨fun h => absurd h hcommand,fun _ h => absurd h (hnone _),
      fun _ h => absurd h (hnone _)⟩
    refine ⟨_,parseCmd_without_command hcommand,fun _ h => absurd h (hnone _),
      fun _ h => absurd h (hnone _),.inl ⟨invalidCommand_ne,rfl⟩⟩

/-- A request of the morning, with the key in its place and no files. -/
def morningHost : Surroundings where
  strftime _ := "2012-06-18 06:00:00"
  strptime _ := none
  record _ := none
  heap _ := 0
  tmpVal := 0
  secretKey := some "secretKey"

/-- Today's hosts over a quota. -/
def overRequest (value : BitVec 64) : Json :=
  .object [("command",.string "showOverList"),("date",.string "today"),("overValue",.integer value)]

theorem morning_accepted (value : BitVec 64) :
    AcceptsDate morningHost oneSubnetMachine.globals (overRequest value) oneSubnetMachine.globals := by
  refine ⟨"today",.datetime "2012-06-18 06:00:00",?_,?_⟩
  · simp [overRequest,Json.member?]
  · simp [parseDate,sameIgnoringCase,morningHost]

theorem requests_answered_iff_quota :
    (∃ reply, parseCmd insertionQsort morningHost oneSubnetMachine.globals (fun _ => 0)
        (some (overRequest 5)) = .ok reply ∧
      reply.response.Faithful (overRequest 5) oneSubnetMachine.globals.sumIpCount) ↔
      ReadRight morningHost (overRequest 5) oneSubnetMachine.globals.sumIpCount := by
  refine requests_answered_iff (morning_accepted 5) fun hfault => ?_
  have hok : (parseCmd insertionQsort morningHost oneSubnetMachine.globals (fun _ => 0)
      (some (overRequest 5))).isOk = true := by decide +kernel
  rw [hfault] at hok
  exact absurd hok (by decide)

/-- A quota of minus one megabyte is taken for one of 4294967295. -/
theorem negative_quota_accepted :
    AcceptsDate morningHost oneSubnetMachine.globals (overRequest (-1)) oneSubnetMachine.globals ∧
      ∃ reply, parseCmd insertionQsort morningHost oneSubnetMachine.globals (fun _ => 0)
          (some (overRequest (-1))) = .ok reply ∧
        reply.response.Succeeds ∧ reply.response.overValue = some 4294967295 ∧
        ¬reply.response.Faithful (overRequest (-1)) oneSubnetMachine.globals.sumIpCount := by
  refine ⟨morning_accepted (-1),_,rfl,?_,by decide +kernel,fun hfaithful => ?_⟩
  · exact ⟨by decide +kernel,by decide +kernel⟩
  · have hvalue := hfaithful.overList (-1) ⟨"showOverList",rfl,by decide⟩ rfl
    have hecho := hvalue.2 4294967295 (by decide +kernel)
    exact absurd hecho (by decide)

end Answers

end Flowstatd
