import Flowstatd.Daemon.Config
import Flowstatd.Framework.Json
import Flowstatd.Framework.Text

/-!
# The configuration file

`LoadConfig` from the parsed file on. Its sections come one after another; each of them may jump to
the common exit, where the count of networks stored so far is returned.
-/

namespace Flowstatd

open Framework

inductive LogLevel where
  | trace
  | debug
  | warn
  | error
  | fatal
  | disable
deriving DecidableEq

/-- What `LoadConfig` asks of the system. `shiftOut` is what the machine makes of a shift by a count
that C leaves undefined. -/
structure ConfigHost where
  usableDir : List Char → Bool
  initLogger : LogLevel → String → Bool
  shiftOut : U32 → Int → U32

/-- The globals and variables of `main` that `LoadConfig` sets. -/
structure Config where
  savePrefix : List Char
  myNet : Subnet
  rcvNetList : List Subnet
  sumIpCount : U32
  secretKey : List Char
  bindIpAddr : InAddr
  netflowBindPort : BitVec 16
  commandBindPort : BitVec 16
  daemonMode : Bool

/-- As `main` calls `LoadConfig`. -/
def Config.initial : Config where
  savePrefix := []
  myNet := Subnet.zero
  rcvNetList := List.replicate maxSubnet Subnet.zero
  sumIpCount := 0
  secretKey := []
  bindIpAddr := 0
  netflowBindPort := 0
  commandBindPort := 0
  daemonMode := false

/-- The local `nSubnet` beside what has been set. -/
structure Loading where
  nSubnet : Nat
  config : Config

/-- A section; `error` is the jump to `Exit`. -/
abbrev Section := Loading → Except Loading Loading

section Networks

/-- `x << n` for an `int` count. -/
def ConfigHost.shiftLeft (host : ConfigHost) (x : U32) (n : Int) : U32 :=
  if 0 ≤ n ∧ n < 32 then x <<< n.toNat else host.shiftOut x n

/-- The entry that is stored for an address and a prefix length. -/
def prefixNetwork (host : ConfigHost) (addr : InAddr) (maskBits : Int) : Subnet :=
  let mask := host.shiftLeft 0xffffffff (32 - maskBits)
  { net := addr
    mask := htonl mask
    maskBits := BitVec.ofInt 8 maskBits
    ipCount := (mask ^^^ 0xffffffff#32) + 1 }

def networkDelimiters : List Char := ['/','\t','\n',' ']

/-- The address and `maskBits` of a text `address/length`. -/
def parsePrefix (text : String) : Option (InAddr × Int) :=
  match strtok networkDelimiters (strncpy (bufSize - 1) text) with
  | none => none
  | some (ipPtr,rest) =>
    match strtok networkDelimiters rest with
    | none => none
    | some (maskPtr,_) =>
      let addr := inetAddr (String.ofList ipPtr)
      if addr = inaddrNone then none
      else
        let maskBits := ((strtoul maskPtr).setWidth 32).toInt
        if maskBits < 1 ∧ maskBits > 32 then none else some (addr,maskBits)

/-- One round of the loop over `statedNetworks`. -/
def storeNetwork (host : ConfigHost) (s : Loading) (netValue : Json) : Loading :=
  match netValue.string? >>= parsePrefix with
  | none => s
  | some (addr,maskBits) =>
    let network := prefixNetwork host addr maskBits
    { nSubnet := s.nSubnet + 1
      config := { s.config with
        rcvNetList := s.config.rcvNetList.set s.nSubnet network
        sumIpCount := s.config.sumIpCount + network.ipCount } }

end Networks

section Sections

variable (host : ConfigHost) (jsonRoot : Json)

def savePrefixSize : Nat := 100
def secretKeySize : Nat := 256

def loadDataDir : Section := fun s =>
  match jsonRoot.member? "dataDir" >>= Json.string? with
  | none => .error s
  | some text =>
    let s := { s with config := { s.config with savePrefix := strncpy (savePrefixSize - 1) text } }
    if host.usableDir s.config.savePrefix then .ok s else .error s

def loadMyNetwork : Section := fun s =>
  let s := { s with config := { s.config with myNet := Subnet.zero } }
  match jsonRoot.member? "myNetwork" >>= Json.string? with
  | none => .error s
  | some text =>
    match parsePrefix text with
    | none => .error s
    | some (addr,maskBits) =>
      .ok { s with config := { s.config with myNet := prefixNetwork host addr maskBits } }

/-- `json_array_size`, in an `int`. -/
def arrayLength (elements : List Json) : Int := (BitVec.ofNat 32 elements.length).toInt

def loadStatedNetworks : Section := fun s =>
  match jsonRoot.member? "statedNetworks" >>= Json.elements? with
  | none => .error s
  | some elements =>
    let length := arrayLength elements
    if length > maxSubnet then .error s
    else .ok ((elements.take length.toNat).foldl (storeNetwork host) s)

def loadSecretKey : Section := fun s =>
  match jsonRoot.member? "secretKey" >>= Json.string? with
  | none => .error s
  | some text =>
    .ok { s with config := { s.config with secretKey := strncpy (secretKeySize - 1) text } }

def loadListenIpAddr : Section := fun s =>
  match jsonRoot.member? "listenIpAddr" >>= Json.string? with
  | none => .ok s
  | some text => .ok { s with config := { s.config with bindIpAddr := inetAddr text } }

/-- Network byte order of a 16-bit word. -/
def htons (x : BitVec 16) : BitVec 16 := BitVec.ofNat 16 (leNat (beBytes 2 x.toNat))

/-- The two sections that set a port. -/
def loadPort (key : String) (set : Config → BitVec 16 → Config) : Section := fun s =>
  match jsonRoot.member? key >>= Json.integer? with
  | none => .error s
  | some port => .ok { s with config := set s.config (htons (port.setWidth 16)) }

def loadNetflowListenPort : Section :=
  loadPort jsonRoot "netflowListenPort" fun config port => { config with netflowBindPort := port }

def loadCommandListenPort : Section :=
  loadPort jsonRoot "commandListenPort" fun config port => { config with commandBindPort := port }

/-- The levels that `CHK_LOG_LEVEL` knows. -/
def logLevels : List (String × LogLevel) :=
  [("trace",.trace),("debug",.debug),("warning",.warn),("error",.error),("fatal",.fatal),
    ("disable",.disable)]

def configuredLevel : LogLevel :=
  match jsonRoot.member? "logLevel" >>= Json.string? with
  | none => .disable
  | some text =>
    match logLevels.find? fun level => sameIgnoringCase text level.1 with
    | none => .disable
    | some level => level.2

def loadLogging : Section := fun s =>
  let fileName := (jsonRoot.member? "logPath" >>= Json.string?).getD "flowstatd.log"
  if host.initLogger (configuredLevel jsonRoot) fileName then .ok s else .error s

def loadDaemonize : Section := fun s =>
  match jsonRoot.member? "daemonize" with
  | some (.bool true) => .ok { s with config := { s.config with daemonMode := true } }
  | _ => .ok s

def configSections : List Section :=
  [loadDataDir host jsonRoot,loadMyNetwork host jsonRoot,loadStatedNetworks host jsonRoot,
    loadSecretKey jsonRoot,loadListenIpAddr jsonRoot,loadNetflowListenPort jsonRoot,
    loadCommandListenPort jsonRoot,loadLogging host jsonRoot,loadDaemonize jsonRoot]

def runSections : List Section → Section
  | [], s => .ok s
  | first :: rest, s => (first s).bind (runSections rest)

/-- The state at `Exit`. -/
def atExit : Except Loading Loading → Loading
  | .ok s => s
  | .error s => s

end Sections

/-- `LoadConfig` on what `json_load_file` makes of the file: the return value and what has been set,
or `none` for the exit on a file that is not JSON. -/
def loadConfigFile (host : ConfigHost) : Option Json → Config → Option (Int × Config)
  | none, _ => none
  | some jsonRoot, config =>
    if jsonRoot.isObject then
      let s := atExit (runSections (configSections host jsonRoot) ⟨0,config⟩)
      some (s.nSubnet,s.config)
    else some (0,config)

/-- `nSubnet <= 0` in `main`, a comparison of `unsigned` values. -/
def mainReturns (ret : Int) : Bool := BitVec.ofInt 32 ret ≤ 0

section Stored

variable {host : ConfigHost} {jsonRoot : Json}

/-- The network that an entry of `statedNetworks` is stored as, if it is not skipped. -/
def acceptedNetwork (host : ConfigHost) (netValue : Json) : Option Subnet :=
  (netValue.string? >>= parsePrefix).map fun (addr,maskBits) => prefixNetwork host addr maskBits

/-- The entries that the loop over `statedNetworks` comes to: none if the sections before it or the
number of entries do not let it start. -/
def entriesRead (host : ConfigHost) (jsonRoot : Json) : List Json :=
  match jsonRoot.member? "dataDir" >>= Json.string?,
      jsonRoot.member? "myNetwork" >>= Json.string? >>= parsePrefix,
      jsonRoot.member? "statedNetworks" >>= Json.elements? with
  | some dataDir, some _, some elements =>
    if host.usableDir (strncpy (savePrefixSize - 1) dataDir) = true ∧
        arrayLength elements ≤ maxSubnet then
      elements.take (arrayLength elements).toNat
    else []
  | _, _, _ => []

/-- The networks that `LoadConfig` stores, in the order of the file. -/
def storedNetworks (host : ConfigHost) (jsonRoot : Json) : List Subnet :=
  (entriesRead host jsonRoot).filterMap (acceptedNetwork host)

/-- What `LoadConfig` leaves in `myNet`. -/
def storedMyNet (host : ConfigHost) (jsonRoot : Json) : Subnet :=
  match jsonRoot.member? "dataDir" >>= Json.string?,
      jsonRoot.member? "myNetwork" >>= Json.string? >>= parsePrefix with
  | some dataDir, some (addr,maskBits) =>
    if host.usableDir (strncpy (savePrefixSize - 1) dataDir) then prefixNetwork host addr maskBits
    else Subnet.zero
  | _, _ => Subnet.zero

/-- The part of the state that the loop over the networks reads and writes. -/
def Loading.networks (s : Loading) : Nat × List Subnet × U32 :=
  (s.nSubnet,s.config.rcvNetList,s.config.sumIpCount)

/-- With `myNet` this is what `main` keeps for its table. -/
def Loading.kept (s : Loading) : (Nat × List Subnet × U32) × Subnet := (s.networks,s.config.myNet)

/-- The section does not touch it. -/
def Section.Keeps (sec : Section) : Prop := ∀ s, (atExit (sec s)).kept = s.kept

theorem runSections_cons_error {first : Section} {rest : List Section} {s s' : Loading}
    (h : first s = .error s') : atExit (runSections (first :: rest) s) = s' := by
  simp [runSections,h,Except.bind,atExit]

theorem runSections_cons_ok {first : Section} {rest : List Section} {s s' : Loading}
    (h : first s = .ok s') :
    atExit (runSections (first :: rest) s) = atExit (runSections rest s') := by
  simp [runSections,h,Except.bind]

theorem runSections_keeps {secs : List Section} (h : ∀ sec ∈ secs, sec.Keeps) :
    Section.Keeps (runSections secs) := by
  induction secs with
  | nil => exact fun _ => rfl
  | cons first rest ih =>
    intro s
    obtain ⟨hfirst,hrest⟩ := List.forall_mem_cons.mp h
    cases hrun : first s with
    | error s' =>
      rw [runSections_cons_error hrun]
      simpa [hrun,atExit] using hfirst s
    | ok s' =>
      rw [runSections_cons_ok hrun,ih hrest s']
      simpa [hrun,atExit] using hfirst s

theorem loadPort_keeps (key : String) {set : Config → BitVec 16 → Config}
    (hset : ∀ n config port, Loading.kept ⟨n,set config port⟩ = Loading.kept ⟨n,config⟩) :
    (loadPort jsonRoot key set).Keeps := by
  intro s
  simp only [loadPort]
  cases jsonRoot.member? key >>= Json.integer? with
  | none => rfl
  | some port => exact hset s.nSubnet s.config _

private theorem later_sections_keep (host : ConfigHost) (jsonRoot : Json) :
    ∀ sec ∈ (configSections host jsonRoot).drop 3, sec.Keeps := by
  simp only [configSections,List.drop_succ_cons,List.drop_zero,List.forall_mem_cons,
    List.not_mem_nil,false_imp_iff,implies_true,and_true]
  refine ⟨fun s => ?_,fun s => ?_,loadPort_keeps _ fun _ _ _ => rfl,
    loadPort_keeps _ fun _ _ _ => rfl,fun s => ?_,fun s => ?_⟩
  · rw [loadSecretKey]
    split <;> rfl
  · rw [loadListenIpAddr]
    split <;> rfl
  · rw [loadLogging]
    split <;> rfl
  · rw [loadDaemonize]
    split <;> rfl

private theorem foldl_storeNetwork_kept (entries : List Json) {s t : Loading}
    (h : s.networks = t.networks) :
    (entries.foldl (storeNetwork host) s).kept =
      ((entries.foldl (storeNetwork host) t).networks,s.config.myNet) := by
  induction entries generalizing s t with
  | nil => exact Prod.ext h rfl
  | cons e entries ih =>
    obtain ⟨hcount,hlist,hsum⟩ : s.nSubnet = t.nSubnet ∧ s.config.rcvNetList = t.config.rcvNetList ∧
        s.config.sumIpCount = t.config.sumIpCount := by
      simpa [Loading.networks] using h
    have hnext : (storeNetwork host s e).networks = (storeNetwork host t e).networks := by
      simp only [storeNetwork]
      cases e.string? >>= parsePrefix with
      | none => exact h
      | some entry => simp only [Loading.networks,hcount,hlist,hsum]
    have hmyNet : (storeNetwork host s e).config.myNet = s.config.myNet := by
      rw [storeNetwork]
      split <;> rfl
    rw [List.foldl_cons,List.foldl_cons,ih hnext,hmyNet]

/-- A section in front of the list has passed, or the list is not read and `myNet` is not set. -/
private theorem loadDataDir_cases (host : ConfigHost) (jsonRoot : Json) (s : Loading) :
    (∃ dataDir s', jsonRoot.member? "dataDir" >>= Json.string? = some dataDir ∧
      host.usableDir (strncpy (savePrefixSize - 1) dataDir) = true ∧
      loadDataDir host jsonRoot s = .ok s' ∧ s'.kept = s.kept) ∨
    (entriesRead host jsonRoot = [] ∧ storedMyNet host jsonRoot = Subnet.zero ∧
      ∃ s', loadDataDir host jsonRoot s = .error s' ∧ s'.kept = s.kept) := by
  simp only [loadDataDir,entriesRead,storedMyNet]
  cases jsonRoot.member? "dataDir" >>= Json.string? with
  | none => exact .inr ⟨rfl,rfl,s,rfl,rfl⟩
  | some dataDir =>
    by_cases husable : host.usableDir (strncpy (savePrefixSize - 1) dataDir) = true
    · simp only [husable,if_true]
      exact .inl ⟨dataDir,_,rfl,husable,rfl,rfl⟩
    · simp only [husable]
      exact .inr ⟨by split <;> simp_all,by split <;> simp_all,_,rfl,rfl⟩

private theorem loadMyNetwork_cases (host : ConfigHost) (jsonRoot : Json) (s : Loading) :
    (∃ addr maskBits s',
      jsonRoot.member? "myNetwork" >>= Json.string? >>= parsePrefix = some (addr,maskBits) ∧
      loadMyNetwork host jsonRoot s = .ok s' ∧
      s'.kept = (s.networks,prefixNetwork host addr maskBits)) ∨
    (entriesRead host jsonRoot = [] ∧ storedMyNet host jsonRoot = Subnet.zero ∧
      ∃ s', loadMyNetwork host jsonRoot s = .error s' ∧ s'.kept = (s.networks,Subnet.zero)) := by
  simp only [loadMyNetwork,entriesRead,storedMyNet]
  cases jsonRoot.member? "myNetwork" >>= Json.string? with
  | none => exact .inr ⟨by split <;> simp_all,by split <;> simp_all,_,rfl,rfl⟩
  | some text =>
    simp only [Option.bind_eq_bind,Option.bind_some]
    cases parsePrefix text with
    | none => exact .inr ⟨by split <;> simp_all,by split <;> simp_all,_,rfl,rfl⟩
    | some network => exact .inl ⟨network.1,network.2,_,rfl,rfl,rfl⟩

/-- What the loop over the entries leaves at the exit of `LoadConfig`, and what is in `myNet`. -/
theorem configSections_kept (host : ConfigHost) (jsonRoot : Json) {s : Loading}
    (hs : s.config.myNet = Subnet.zero) :
    (atExit (runSections (configSections host jsonRoot) s)).kept =
      (((entriesRead host jsonRoot).foldl (storeNetwork host) s).networks,
        storedMyNet host jsonRoot) := by
  have hlater := runSections_keeps (later_sections_keep host jsonRoot)
  simp only [configSections,List.drop_succ_cons,List.drop_zero] at hlater
  rw [configSections]
  rcases loadDataDir_cases host jsonRoot s with ⟨dataDir,s₁,hdir,husable,hrun₁,hkeep₁⟩ |
    ⟨hnone,hmyNet,s₁,hrun₁,hkeep₁⟩
  · have hnetworks := congrArg Prod.fst hkeep₁
    simp only [Loading.kept] at hnetworks
    rw [runSections_cons_ok hrun₁]
    rcases loadMyNetwork_cases host jsonRoot s₁ with ⟨addr,maskBits,s₂,hnet,hrun₂,hkeep₂⟩ |
      ⟨hnone,hmyNet,s₂,hrun₂,hkeep₂⟩
    · rw [hnetworks] at hkeep₂
      have hstored : storedMyNet host jsonRoot = prefixNetwork host addr maskBits := by
        simp only [storedMyNet,hdir,hnet,husable,if_true]
      rw [runSections_cons_ok hrun₂,hstored]
      cases hlist : jsonRoot.member? "statedNetworks" >>= Json.elements? with
      | none =>
        have hrun₃ : loadStatedNetworks host jsonRoot s₂ = .error s₂ := by
          simp only [loadStatedNetworks,hlist]
        rw [runSections_cons_error hrun₃,entriesRead,hdir,hnet,hlist]
        exact hkeep₂
      | some elements =>
        by_cases hlen : arrayLength elements ≤ maxSubnet
        · have hrun₃ : loadStatedNetworks host jsonRoot s₂ =
              .ok ((elements.take (arrayLength elements).toNat).foldl (storeNetwork host) s₂) := by
            simp only [loadStatedNetworks,hlist,gt_iff_lt,Int.not_lt.mpr hlen,if_false]
          rw [runSections_cons_ok hrun₃,hlater,
            foldl_storeNetwork_kept _ (congrArg Prod.fst hkeep₂),entriesRead,hdir,hnet,hlist]
          simp only [husable,hlen,and_self,if_true]
          exact congrArg _ (congrArg Prod.snd hkeep₂)
        · have hrun₃ : loadStatedNetworks host jsonRoot s₂ = .error s₂ := by
            simp only [loadStatedNetworks,hlist,gt_iff_lt,Int.not_le.mp hlen,if_true]
          rw [runSections_cons_error hrun₃,entriesRead,hdir,hnet,hlist]
          simp only [hlen,and_false,if_false]
          exact hkeep₂
    · rw [runSections_cons_error hrun₂,hnone,hmyNet,hkeep₂,hnetworks]
      rfl
  · rw [runSections_cons_error hrun₁,hnone,hmyNet,hkeep₁,← hs]
    rfl

/-- The networks stored so far, with the rest of `rcvNetList` as it was. -/
def Loading.Stores (s : Loading) (taken : List Subnet) : Prop :=
  s.networks = (taken.length,taken ++ List.replicate (maxSubnet - taken.length) Subnet.zero,
    (taken.map Subnet.ipCount).sum)

theorem storeNetwork_stores (host : ConfigHost) {s : Loading} {taken : List Subnet}
    (h : s.Stores taken) (hlen : taken.length < maxSubnet) (netValue : Json) :
    (storeNetwork host s netValue).Stores (taken ++ (acceptedNetwork host netValue).toList) := by
  simp only [storeNetwork,acceptedNetwork]
  cases netValue.string? >>= parsePrefix with
  | none => simpa using h
  | some entry =>
    obtain ⟨hcount,hlist,hsum⟩ : s.nSubnet = taken.length ∧ s.config.rcvNetList =
        taken ++ List.replicate (maxSubnet - taken.length) Subnet.zero ∧
        s.config.sumIpCount = (taken.map Subnet.ipCount).sum := by
      simpa [Loading.Stores,Loading.networks] using h
    obtain ⟨k,hk⟩ : ∃ k, maxSubnet - taken.length = k + 1 :=
      ⟨maxSubnet - taken.length - 1,by omega⟩
    have hk' : maxSubnet - (taken.length + 1) = k := by omega
    simp only [Loading.Stores,Loading.networks,hcount,hlist,hsum,hk,List.replicate_succ]
    rw [List.set_append_right _ _ le_rfl,Nat.sub_self,List.set_cons_zero]
    simp [hk']

theorem foldl_storeNetwork_stores (host : ConfigHost) (entries : List Json) {s : Loading}
    {taken : List Subnet} (h : s.Stores taken) (hlen : taken.length + entries.length ≤ maxSubnet) :
    (entries.foldl (storeNetwork host) s).Stores
      (taken ++ entries.filterMap (acceptedNetwork host)) := by
  induction entries generalizing s taken with
  | nil => simpa using h
  | cons e entries ih =>
    rw [List.length_cons] at hlen
    have hnext := storeNetwork_stores host h (by omega) e
    have hcount : (acceptedNetwork host e).toList.length ≤ 1 := by
      cases acceptedNetwork host e <;> simp
    have hrest := ih hnext (by rw [List.length_append]; omega)
    rw [List.append_assoc] at hrest
    rw [List.foldl_cons]
    convert hrest using 2
    cases hacc : acceptedNetwork host e <;> simp [hacc]

theorem entriesRead_length (host : ConfigHost) (jsonRoot : Json) :
    (entriesRead host jsonRoot).length ≤ maxSubnet := by
  rw [entriesRead]
  split
  · split_ifs with hlen
    · rw [List.length_take]
      omega
    · exact Nat.zero_le _
  · exact Nat.zero_le _

theorem storedNetworks_length (host : ConfigHost) (jsonRoot : Json) :
    (storedNetworks host jsonRoot).length ≤ maxSubnet :=
  (List.length_filterMap_le _ _).trans (entriesRead_length host jsonRoot)

/-- `LoadConfig` returns the number of networks it has stored, whatever comes after them; this is all
that `main` keeps of a configuration for its table. -/
theorem loadConfigFile_eq (host : ConfigHost) (jsonRoot : Json) :
    let stored := storedNetworks host jsonRoot
    ∃ config, loadConfigFile host (some jsonRoot) Config.initial =
        some ((stored.length : Int),config) ∧
      config.rcvNetList = stored ++ List.replicate (maxSubnet - stored.length) Subnet.zero ∧
      config.sumIpCount = (stored.map Subnet.ipCount).sum ∧
      config.myNet = storedMyNet host jsonRoot := by
  intro stored
  have hstart : Loading.Stores ⟨0,Config.initial⟩ [] := rfl
  have hloop := foldl_storeNetwork_stores host (entriesRead host jsonRoot) hstart
    (by simpa using entriesRead_length host jsonRoot)
  rw [List.nil_append] at hloop
  by_cases hobject : jsonRoot.isObject = true
  · have hexit := configSections_kept host jsonRoot (s := ⟨0,Config.initial⟩) rfl
    rw [hloop] at hexit
    simp only [Loading.kept,Loading.networks,Prod.mk.injEq] at hexit
    obtain ⟨⟨hcount,hlist,hsum⟩,hmyNet⟩ := hexit
    refine ⟨_,?_,hlist,hsum,hmyNet⟩
    simp only [loadConfigFile,hobject,if_true,hcount]
    rfl
  · have hnone (key : String) : jsonRoot.member? key = none := by
      cases jsonRoot <;> simp_all [Json.member?,Json.isObject]
    have hstored : stored = [] := by
      simp only [stored,storedNetworks,entriesRead,hnone,Option.bind_eq_bind,Option.bind_none,
        List.filterMap_nil]
    refine ⟨Config.initial,?_,?_,?_,?_⟩
    · simp [loadConfigFile,hobject,hstored]
    · simp [hstored,Config.initial]
    · simp [hstored,Config.initial]
    · simp [storedMyNet,hnone,Config.initial]

end Stored

section Required

variable {host : ConfigHost} {jsonRoot : Json}

/-- Every required setting is there, with its type. -/
structure SettingsComplete (jsonRoot : Json) : Prop where
  dataDir : ∃ text, jsonRoot.member? "dataDir" = some (.string text)
  myNetwork : ∃ text, jsonRoot.member? "myNetwork" = some (.string text)
  statedNetworks : ∃ elements, jsonRoot.member? "statedNetworks" = some (.array elements)
  secretKey : ∃ text, jsonRoot.member? "secretKey" = some (.string text)
  netflowListenPort : ∃ port, jsonRoot.member? "netflowListenPort" = some (.integer port)
  commandListenPort : ∃ port, jsonRoot.member? "commandListenPort" = some (.integer port)

theorem acceptedNetwork_eq_none_iff {netValue : Json} :
    acceptedNetwork host netValue = none ↔ netValue.string? >>= parsePrefix = none := by
  simp only [acceptedNetwork,Option.map_eq_none_iff]

/-- The return value stops `main` when it is zero: there are no more networks than fit an `int`. -/
theorem mainReturns_iff {n : Nat} (h : n ≤ maxSubnet) : mainReturns (n : Int) = true ↔ n = 0 := by
  simp only [maxSubnet] at h
  have hzero : (0 : BitVec 32).toNat = 0 := rfl
  simp only [mainReturns,decide_eq_true_eq,BitVec.le_def,BitVec.ofInt_natCast,BitVec.toNat_ofNat,
    hzero]
  omega

/-- An incomplete configuration is reported to `main` exactly when it is incomplete in front of the
first network that is stored. -/
theorem incomplete_reported_iff (host : ConfigHost) (jsonRoot : Json) :
    ∃ ret config, loadConfigFile host (some jsonRoot) Config.initial = some (ret,config) ∧
      ((¬SettingsComplete jsonRoot → ret ≤ 0 ∧ mainReturns ret = true) ↔
        SettingsComplete jsonRoot ∨
          ∀ e ∈ entriesRead host jsonRoot, e.string? >>= parsePrefix = none) := by
  obtain ⟨config,hload,-,-,-⟩ := loadConfigFile_eq host jsonRoot
  refine ⟨_,config,hload,?_⟩
  have hmain := mainReturns_iff (storedNetworks_length host jsonRoot)
  have hzero : (storedNetworks host jsonRoot).length = 0 ↔
      ∀ e ∈ entriesRead host jsonRoot, e.string? >>= parsePrefix = none := by
    simp only [storedNetworks,List.length_eq_zero_iff,List.filterMap_eq_nil_iff,
      acceptedNetwork_eq_none_iff]
  rw [hmain,← hzero]
  by_cases hcomplete : SettingsComplete jsonRoot
  · simp [hcomplete]
  · simp only [hcomplete,not_false_eq_true,true_implies,false_or]
    omega

/-- A configuration that ends behind its networks. -/
def keylessConfig : Json :=
  .object [("dataDir",.string "/data/flowstatd/data"),("myNetwork",.string "10.0.0.0/8"),
    ("statedNetworks",.array [.string "10.0.0.0/30"])]

/-- A system with that directory; shift counts are taken modulo 32. -/
def plainHost : ConfigHost where
  usableDir _ := true
  initLogger _ _ := true
  shiftOut x n := x <<< (n % 32).toNat

/-- The daemon goes on without a key and without ports. -/
theorem keyless_config_accepted :
    ¬SettingsComplete keylessConfig ∧
      ∃ config, loadConfigFile plainHost (some keylessConfig) Config.initial = some (1,config) ∧
        mainReturns 1 = false ∧ config.secretKey = [] ∧ config.netflowBindPort = 0 ∧
        config.commandBindPort = 0 := by
  refine ⟨fun hcomplete => ?_,_,rfl,by decide,by decide +kernel,by decide +kernel,by decide +kernel⟩
  obtain ⟨text,htext⟩ := hcomplete.secretKey
  simp [keylessConfig,Json.member?] at htext

end Required

section Canonical

variable {host : ConfigHost} {jsonRoot : Json} {entries : List Json}

/-- A network as the lookups rely on it. -/
structure Subnet.Canonical (n : Subnet) : Prop where
  maskBits_pos : 1 ≤ n.maskBits.toNat
  maskBits_le : n.maskBits.toNat ≤ 32
  mask : n.mask = htonl (0xffffffff#32 <<< (32 - n.maskBits.toNat))
  base : n.net &&& n.mask = n.net
  ipCount : n.ipCount.toNat = 2 ^ (32 - n.maskBits.toNat)

/-- A prefix length in range, for an address without host bits. -/
def ProperPrefix (addr : InAddr) (maskBits : Int) : Prop :=
  1 ≤ maskBits ∧ maskBits ≤ 32 ∧ addr &&& (statedNetwork addr maskBits.toNat).mask = addr

instance (addr : InAddr) (maskBits : Int) : Decidable (ProperPrefix addr maskBits) :=
  inferInstanceAs (Decidable (_ ∧ _ ∧ _))

/-- The canonical network that an entry describes, if it describes one. -/
def canonicalNetwork (netValue : Json) : Option Subnet :=
  match netValue.string? >>= parsePrefix with
  | none => none
  | some (addr,maskBits) =>
    if ProperPrefix addr maskBits then some (statedNetwork addr maskBits.toNat) else none

/-- The networks stored are canonical, the entries that describe none are skipped, and the sum has
not wrapped. -/
structure StoresCanonical (entries : List Json) (stored : List Subnet) (sumIpCount : U32) : Prop where
  canonical : ∀ n ∈ stored, n.Canonical
  skipped : stored = entries.filterMap canonicalNetwork
  sum : sumIpCount.toNat = addressCount stored

/-- Every entry that parses has a proper prefix, and all addresses together can be counted in 32
bits. -/
structure ProperEntries (entries : List Json) : Prop where
  proper : ∀ e ∈ entries, ∀ addr maskBits, e.string? >>= parsePrefix = some (addr,maskBits) →
    ProperPrefix addr maskBits
  room : ((entries.filterMap fun e => e.string? >>= parsePrefix).map fun entry =>
    2 ^ (32 - entry.2.toNat)).sum < 2 ^ 32

theorem prefixNetwork_eq {addr : InAddr} {maskBits : Int} (h : 1 ≤ maskBits ∧ maskBits ≤ 32) :
    prefixNetwork host addr maskBits = statedNetwork addr maskBits.toNat := by
  obtain ⟨p,rfl⟩ := Int.eq_ofNat_of_zero_le (show 0 ≤ maskBits by omega)
  have hshift : host.shiftLeft 0xffffffff (32 - (p : Int)) = 0xffffffff#32 <<< (32 - p) := by
    rw [ConfigHost.shiftLeft,if_pos (by omega)]
    congr 1
    omega
  simp only [prefixNetwork,hshift,statedNetwork,Int.toNat_natCast,BitVec.ofInt_natCast]

theorem canonical_of_proper {addr : InAddr} {maskBits : Int} (h : ProperPrefix addr maskBits) :
    (statedNetwork addr maskBits.toNat).Canonical := by
  obtain ⟨hpos,hle,hbase⟩ := h
  have hbits := statedNetwork_maskBits addr (show maskBits.toNat ≤ 32 by omega)
  refine ⟨by omega,by omega,?_,hbase,?_⟩
  · rw [hbits]
    rfl
  · rw [hbits]
    exact statedNetwork_ipCount addr (by omega) (by omega)

theorem acceptedNetwork_of_canonical (host : ConfigHost) {netValue : Json} {n : Subnet}
    (h : canonicalNetwork netValue = some n) :
    acceptedNetwork host netValue = some n ∧ n.Canonical := by
  rw [canonicalNetwork] at h
  rw [acceptedNetwork]
  cases hparse : netValue.string? >>= parsePrefix with
  | none => simp [hparse] at h
  | some entry =>
    simp only [hparse] at h
    split_ifs at h with hproper
    obtain rfl := Option.some.inj h
    exact ⟨congrArg some (prefixNetwork_eq ⟨hproper.1,hproper.2.1⟩),canonical_of_proper hproper⟩

theorem sum_ipCount_toNat (nets : List Subnet) :
    ((nets.map Subnet.ipCount).sum).toNat = addressCount nets % 2 ^ 32 := by
  induction nets with
  | nil => rfl
  | cons n nets ih =>
    rw [List.map_cons,List.sum_cons,BitVec.toNat_add,ih,Nat.add_mod_mod]
    rfl

/-- Where one function is defined wherever another is and gives no more results on a list, the two
are defined on the same elements of it. -/
theorem isSome_of_filterMap_length {α β : Type} (f g : α → Option β) {l : List α}
    (hfg : ∀ x ∈ l, (g x).isSome → (f x).isSome)
    (h : (l.filterMap f).length ≤ (l.filterMap g).length) :
    ∀ x ∈ l, (f x).isSome → (g x).isSome := by
  simp only [List.length_filterMap_eq_countP] at h
  induction l with
  | nil => simp
  | cons x l ih =>
    obtain ⟨hx,hl⟩ := List.forall_mem_cons.mp hfg
    have hle := List.countP_mono_left hl
    rw [List.countP_cons,List.countP_cons] at h
    refine List.forall_mem_cons.mpr ⟨fun hf => ?_,ih hl ?_⟩
    · by_contra hg
      simp only [hf,hg,if_true,if_false] at h
      omega
    · have hone : (if (g x).isSome = true then 1 else 0) ≤ if (f x).isSome = true then 1 else 0 := by
        split_ifs <;> simp_all
      omega

theorem addressCount_proper (host : ConfigHost)
    (h : ∀ e ∈ entries, ∀ addr maskBits, e.string? >>= parsePrefix = some (addr,maskBits) →
      ProperPrefix addr maskBits) :
    addressCount (entries.filterMap (acceptedNetwork host)) =
      ((entries.filterMap fun e => e.string? >>= parsePrefix).map fun entry =>
        2 ^ (32 - entry.2.toNat)).sum := by
  induction entries with
  | nil => rfl
  | cons e entries ih =>
    obtain ⟨he,hentries⟩ := List.forall_mem_cons.mp h
    rw [List.filterMap_cons,List.filterMap_cons,acceptedNetwork]
    cases hparse : e.string? >>= parsePrefix with
    | none => simpa using ih hentries
    | some entry =>
      obtain ⟨hpos,hle,-⟩ := he entry.1 entry.2 hparse
      have hcount := statedNetwork_ipCount entry.1 (show 1 ≤ entry.2.toNat by omega) (by omega)
      have hrest := ih hentries
      simp only [addressCount,Option.map_some,List.map_cons,List.sum_cons,
        prefixNetwork_eq ⟨hpos,hle⟩,hcount] at hrest ⊢
      rw [hrest]

/-- The loop stores what it should exactly when every entry that parses has a proper prefix. -/
theorem accepted_eq_canonical_iff (host : ConfigHost) :
    entries.filterMap (acceptedNetwork host) = entries.filterMap canonicalNetwork ↔
      ∀ e ∈ entries, ∀ addr maskBits, e.string? >>= parsePrefix = some (addr,maskBits) →
        ProperPrefix addr maskBits := by
  constructor
  · intro hsame e he addr maskBits hparse
    have hdefined (x : Json) (hx : (canonicalNetwork x).isSome) : (acceptedNetwork host x).isSome := by
      obtain ⟨n,hn⟩ := Option.isSome_iff_exists.mp hx
      rw [(acceptedNetwork_of_canonical host hn).1]
      rfl
    have hsome := isSome_of_filterMap_length (acceptedNetwork host) canonicalNetwork
      (fun x _ => hdefined x) (congrArg List.length hsame).le e he (by simp [acceptedNetwork,hparse])
    by_contra hnot
    simp [canonicalNetwork,hparse,hnot] at hsome
  · intro hproper
    apply List.filterMap_congr
    intro e he
    cases hparse : e.string? >>= parsePrefix with
    | none => simp [acceptedNetwork,canonicalNetwork,hparse]
    | some entry =>
      have hentry := hproper e he entry.1 entry.2 hparse
      simp [acceptedNetwork,canonicalNetwork,hparse,hentry,
        prefixNetwork_eq ⟨hentry.1,hentry.2.1⟩]

/-- What `LoadConfig` stores is canonical, with nothing wrapped, exactly when the entries it reads
are proper. -/
theorem stores_canonical_iff (host : ConfigHost) (jsonRoot : Json) :
    ∃ ret config, loadConfigFile host (some jsonRoot) Config.initial = some (ret,config) ∧
      (StoresCanonical (entriesRead host jsonRoot) (config.rcvNetList.take ret.toNat)
          config.sumIpCount ↔
        ProperEntries (entriesRead host jsonRoot)) := by
  obtain ⟨config,hload,hlist,hsum,-⟩ := loadConfigFile_eq host jsonRoot
  refine ⟨_,config,hload,?_⟩
  rw [Int.toNat_natCast,hlist,List.take_left,hsum,storedNetworks]
  constructor
  · intro h
    have hproper := (accepted_eq_canonical_iff host).mp h.skipped
    refine ⟨hproper,?_⟩
    rw [← addressCount_proper host hproper,← h.sum]
    exact BitVec.isLt _
  · intro h
    have hsame := (accepted_eq_canonical_iff host).mpr h.proper
    refine ⟨fun n hn => ?_,hsame,?_⟩
    · rw [hsame] at hn
      obtain ⟨e,_,he⟩ := List.mem_filterMap.mp hn
      exact (acceptedNetwork_of_canonical host he).2
    · rw [sum_ipCount_toNat,addressCount_proper host h.proper]
      exact Nat.mod_eq_of_lt h.room

/-- The entries that parse, as `loadConfig` takes them. -/
def statedEntries (host : ConfigHost) (jsonRoot : Json) : List StatedEntry :=
  (entriesRead host jsonRoot).filterMap fun e =>
    (e.string? >>= parsePrefix).map fun (addr,maskBits) => ⟨addr,maskBits.toNat⟩

/-- A prefix length past the end of an address. -/
def longPrefixConfig : Json :=
  .object [("dataDir",.string "/data/flowstatd/data"),("myNetwork",.string "10.0.0.0/8"),
    ("statedNetworks",.array [.string "10.0.0.0/33"])]

/-- The check on the prefix length lets every number through. -/
theorem long_prefix_stored :
    (entriesRead plainHost longPrefixConfig).length ≤ maxSubnet ∧
      ∃ config, loadConfigFile plainHost (some longPrefixConfig) Config.initial = some (1,config) ∧
        (config.rcvNetList.take 1).map Subnet.maskBits = [33] ∧
        ¬StoresCanonical (entriesRead plainHost longPrefixConfig) (config.rcvNetList.take 1)
          config.sumIpCount := by
  obtain ⟨config,hload⟩ : ∃ config,
      loadConfigFile plainHost (some longPrefixConfig) Config.initial = some (1,config) := ⟨_,rfl⟩
  have hbits : (config.rcvNetList.take 1).map Subnet.maskBits = [33] := by
    have hload' := congrArg (Option.map fun r => (r.2.rcvNetList.take 1).map Subnet.maskBits) hload
    exact (Option.some.inj hload').symm.trans (by decide +kernel)
  refine ⟨by decide,config,hload,hbits,fun hcanonical => ?_⟩
  obtain ⟨n,hn,hn33⟩ := List.mem_map.mp (hbits ▸ List.mem_singleton_self (33 : BitVec 8))
  have hle := (hcanonical.canonical n hn).maskBits_le
  rw [hn33] at hle
  exact absurd hle (by decide)

end Canonical

end Flowstatd
