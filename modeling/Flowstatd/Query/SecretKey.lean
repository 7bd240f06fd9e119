import Flowstatd.Daemon.ConfigFile
import Flowstatd.Framework.CString
import Flowstatd.Query.Requests

/-!
# Where the secret key is compared

`flowstatd.c` defines `secretKey` as an array and `command.c` declares it as a pointer, so
`parseCmd` takes the first eight bytes of the key for the address to compare with. What stands
there is not the key, except by accident.
-/

namespace Flowstatd

open Framework

def textBytes (s : String) : List Byte := cString (s.toUTF8.toList.map UInt8.toBitVec)

/-- A configured key of at most 255 bytes in the memory of a child, where `LoadConfig` has put it:
the array of 256 bytes is filled up with zeros. -/
structure KeyStorage where
  key : String
  short : (textBytes key).length < secretKeySize
  mem : MappedMemory
  array : BitVec 64
  stored : ∀ i < secretKeySize,
    mem (array + BitVec.ofNat 64 i) = some ((textBytes key).getD i 0)

namespace KeyStorage

/-- The first bytes of the array, as many as a pointer has. -/
def pointerBytes (k : KeyStorage) : List Byte :=
  (List.range 8).map fun i => (textBytes k.key).getD i 0

/-- The address that `extern char *secretKey` makes of the array. -/
def pointer (k : KeyStorage) : BitVec 64 := BitVec.ofNat 64 (leNat k.pointerBytes)

/-- `strcmp(json_string_value(jsonShowAll), secretKey) == 0`; `none` is a segmentation fault. -/
def compare (k : KeyStorage) (showAll : String) : Option Bool :=
  match pointerAt k.mem k.array with
  | none => none
  | some secretKey => strcmpAt k.mem (textBytes showAll) secretKey

def parseShowAll (k : KeyStorage) (jsonRoot : Json) : Except Fault Bool :=
  match jsonRoot.member? "showAll" >>= Json.string? with
  | none => .ok false
  | some showAll =>
    match k.compare showAll with
    | none => .error .secretKey
    | some same => .ok same

/-- What the comparison of a request amounts to: with the text itself, with another or with none. -/
def met (k : KeyStorage) (jsonRoot : Json) : Option String :=
  match jsonRoot.member? "showAll" >>= Json.string? with
  | none => none
  | some showAll => (k.compare showAll).map fun same => if same then showAll else showAll.push '.'

def parseCmd (k : KeyStorage) (qsort : List HostFlow → List HostFlow) (host : Surroundings)
    (g : Globals) (whitelist : Whitelist) (jsonRoot : Json) : Except Fault Reply :=
  Flowstatd.parseCmd qsort { host with secretKey := k.met jsonRoot } g whitelist (some jsonRoot)

variable (k : KeyStorage)

theorem pointerAt_array : pointerAt k.mem k.array = some k.pointer := by
  have hlen : k.pointerBytes.length = 8 := by simp [pointerBytes]
  have hread : readBytes k.mem 8 k.array = some k.pointerBytes := by
    rw [← hlen]
    apply readBytes_eq
    intro i hi
    rw [hlen] at hi
    rw [k.stored i (Nat.lt_trans hi (by decide)),pointerBytes]
    simp [hi]
  rw [pointerAt,hread]
  rfl

theorem compare_eq (showAll : String) :
    k.compare showAll = strcmpAt k.mem (textBytes showAll) k.pointer := by
  rw [compare,pointerAt_array]

/-- The model of requests with what the comparison meets has the same `isShowAll`. -/
theorem parseShowAll_met (host : Surroundings) (jsonRoot : Json) :
    Flowstatd.parseShowAll { host with secretKey := k.met jsonRoot } jsonRoot =
      k.parseShowAll jsonRoot := by
  rw [Flowstatd.parseShowAll,parseShowAll,met]
  cases jsonRoot.member? "showAll" >>= Json.string? with
  | none => rfl
  | some showAll =>
    cases hsame : k.compare showAll with
    | none => simp [hsame]
    | some same =>
      have hne : showAll ≠ showAll.push '.' := fun h => by
        simpa using congrArg String.length h
      cases same <;> simp [hsame,hne]

/-- The request presents the configured key. -/
def Presents (jsonRoot : Json) : Prop :=
  ∃ showAll, jsonRoot.member? "showAll" = some (.string showAll) ∧
    textBytes showAll = textBytes k.key

/-- Show-all is granted to a request that presents the key, and any other request goes on
without. -/
structure ShowAllExact (jsonRoot : Json) : Prop where
  granted : k.parseShowAll jsonRoot = .ok true ↔ k.Presents jsonRoot
  answered : ¬k.Presents jsonRoot → k.parseShowAll jsonRoot = .ok false

/-- The memory at the pointer does for the comparison: the key stands there if the request presents
it, and otherwise something that can be told from what the request presents. -/
def Comparable (jsonRoot : Json) : Prop :=
  ∀ showAll, jsonRoot.member? "showAll" = some (.string showAll) →
    if textBytes showAll = textBytes k.key then StringAt k.mem k.pointer (textBytes k.key)
    else DiffersAt k.mem k.pointer (textBytes showAll)

section Requests

variable {k : KeyStorage} {jsonRoot : Json} {showAll : String}

private theorem parseShowAll_ok_iff (h : jsonRoot.member? "showAll" = some (.string showAll))
    (isShowAll : Bool) :
    k.parseShowAll jsonRoot = .ok isShowAll ↔
      strcmpAt k.mem (textBytes showAll) k.pointer = some isShowAll := by
  simp only [parseShowAll,h,Option.bind_eq_bind,Option.bind_some,Json.string?,compare_eq]
  cases strcmpAt k.mem (textBytes showAll) k.pointer <;> simp

theorem parseShowAll_true_iff (h : jsonRoot.member? "showAll" = some (.string showAll)) :
    k.parseShowAll jsonRoot = .ok true ↔ StringAt k.mem k.pointer (textBytes showAll) :=
  (parseShowAll_ok_iff h true).trans (strcmpAt_eq_true_iff _ _)

theorem parseShowAll_false_iff (h : jsonRoot.member? "showAll" = some (.string showAll)) :
    k.parseShowAll jsonRoot = .ok false ↔ DiffersAt k.mem k.pointer (textBytes showAll) :=
  (parseShowAll_ok_iff h false).trans (strcmpAt_eq_false_iff _ _)

theorem parseShowAll_without_string
    (h : ¬∃ showAll, jsonRoot.member? "showAll" = some (.string showAll)) :
    k.parseShowAll jsonRoot = .ok false := by
  have hnone : jsonRoot.member? "showAll" >>= Json.string? = none := by
    refine Option.eq_none_iff_forall_ne_some.mpr fun showAll hmember => h ⟨showAll,?_⟩
    simpa [Option.bind_eq_some_iff] using hmember
  simp only [parseShowAll,hnone]

private theorem presents_iff (h : jsonRoot.member? "showAll" = some (.string showAll)) :
    k.Presents jsonRoot ↔ textBytes showAll = textBytes k.key := by
  simp [Presents,h]

private theorem comparable_iff (h : jsonRoot.member? "showAll" = some (.string showAll)) :
    k.Comparable jsonRoot ↔
      if textBytes showAll = textBytes k.key then StringAt k.mem k.pointer (textBytes k.key)
      else DiffersAt k.mem k.pointer (textBytes showAll) := by
  simp [Comparable,h]

end Requests

/-- Show-all is decided by the key exactly when the memory at the pointer does for it. -/
theorem showAllExact_iff (k : KeyStorage) (jsonRoot : Json) :
    k.ShowAllExact jsonRoot ↔ k.Comparable jsonRoot := by
  by_cases hstring : ∃ showAll, jsonRoot.member? "showAll" = some (.string showAll)
  · obtain ⟨showAll,hmember⟩ := hstring
    rw [comparable_iff hmember]
    split_ifs with hkey
    · have hpresents := (presents_iff hmember).mpr hkey
      rw [← hkey,← parseShowAll_true_iff hmember]
      constructor
      · exact fun h => h.granted.mpr hpresents
      · exact fun h => ⟨iff_of_true h hpresents,fun hnot => absurd hpresents hnot⟩
    · have hnot : ¬k.Presents jsonRoot := fun h => hkey ((presents_iff hmember).mp h)
      rw [← parseShowAll_false_iff hmember]
      constructor
      · exact fun h => h.answered hnot
      · exact fun h => ⟨iff_of_false (by simp [h]) hnot,fun _ => h⟩
  · have hfalse := parseShowAll_without_string (k := k) hstring
    have hnot : ¬k.Presents jsonRoot := fun ⟨showAll,hmember,_⟩ => hstring ⟨showAll,hmember⟩
    constructor
    · exact fun _ showAll hmember => absurd ⟨showAll,hmember⟩ hstring
    · exact fun _ => ⟨iff_of_false (by simp [hfalse]) hnot,fun _ => hfalse⟩

/-- It is for all requests exactly when the key itself stands at the address that its first bytes
make. -/
theorem showAllExact_forall_iff (k : KeyStorage) :
    (∀ jsonRoot, k.ShowAllExact jsonRoot) ↔ StringAt k.mem k.pointer (textBytes k.key) := by
  constructor
  · intro h
    have hmember : (Json.object [("showAll",.string k.key)]).member? "showAll" =
        some (.string k.key) := by simp [Json.member?]
    exact (parseShowAll_true_iff hmember).mp ((h _).granted.mpr ⟨k.key,hmember,rfl⟩)
  · intro h jsonRoot
    -- what stands there is the key, so everything else differs from it
    have hcomparable : k.Comparable jsonRoot := by
      intro showAll _
      split_ifs with hkey
      · exact h
      · exact h.differsAt (zero_notMem_cString _) (zero_notMem_cString _) hkey
    exact (showAllExact_iff k jsonRoot).mpr hcomparable

/-- With a good date and a command, `parseCmd` runs the command with this value of `isShowAll`. -/
def RunsWith (jsonRoot : Json) (isShowAll : Bool) : Prop :=
  ∀ (qsort : List HostFlow → List HostFlow) (host : Surroundings) (g g' : Globals)
    (whitelist : Whitelist) (cmd : String), AcceptsDate host g jsonRoot g' →
      jsonRoot.member? "command" = some (.string cmd) →
        ∃ member, k.parseCmd qsort host g whitelist jsonRoot =
          runCommand qsort g' whitelist jsonRoot isShowAll cmd
            ⟨retInfo .invalidCommand,some cmd,some member,none,none,none,none,none⟩

theorem parseCmd_of_accepted (qsort : List HostFlow → List HostFlow) {host : Surroundings}
    {g g' : Globals} (whitelist : Whitelist) {jsonRoot : Json} {cmd : String}
    (hdate : AcceptsDate host g jsonRoot g')
    (hcmd : jsonRoot.member? "command" = some (.string cmd)) :
    ∃ member, k.parseCmd qsort host g whitelist jsonRoot =
      k.parseShowAll jsonRoot >>= fun isShowAll =>
        runCommand qsort g' whitelist jsonRoot isShowAll cmd
          ⟨retInfo .invalidCommand,some cmd,some member,none,none,none,none,none⟩ := by
  have hdate' : AcceptsDate { host with secretKey := k.met jsonRoot } g jsonRoot g' := hdate
  obtain ⟨member,hparse⟩ := Flowstatd.parseCmd_of_accepted qsort whitelist hdate' hcmd
  exact ⟨member,by rw [parseCmd,hparse,parseShowAll_met]⟩

theorem runsWith_of_ok {jsonRoot : Json} {isShowAll : Bool}
    (h : k.parseShowAll jsonRoot = .ok isShowAll) : k.RunsWith jsonRoot isShowAll := by
  intro qsort host g g' whitelist cmd hdate hcmd
  obtain ⟨member,hparse⟩ := k.parseCmd_of_accepted qsort whitelist hdate hcmd
  refine ⟨member,?_⟩
  rw [hparse,h]
  rfl

end KeyStorage

/-- For each request show-all is decided by the key exactly when the memory at the pointer does for
the comparison, and for all requests exactly when the key itself stands there. Then the command
runs with it if the key is presented, and without it otherwise. -/
theorem show_all_by_key_iff (k : KeyStorage) :
    (∀ jsonRoot : Json, k.ShowAllExact jsonRoot ↔ k.Comparable jsonRoot) ∧
    ((∀ jsonRoot : Json, k.ShowAllExact jsonRoot) ↔
      StringAt k.mem k.pointer (textBytes k.key)) ∧
    ∀ jsonRoot : Json, k.ShowAllExact jsonRoot →
      (k.Presents jsonRoot → k.RunsWith jsonRoot true) ∧
        (¬k.Presents jsonRoot → k.RunsWith jsonRoot false) := by
  refine ⟨k.showAllExact_iff,k.showAllExact_forall_iff,?_⟩
  intro jsonRoot h
  constructor
  · intro hkey
    apply k.runsWith_of_ok
    exact h.granted.mpr hkey
  · intro hkey
    apply k.runsWith_of_ok
    exact h.answered hkey

/-- A memory in which only the array is mapped. -/
def arrayMemory (key : String) (array : BitVec 64) : MappedMemory := fun a =>
  if (a - array).toNat < secretKeySize then some ((textBytes key).getD (a - array).toNat 0)
  else none

/-- The key "secretKey" in an array at 0x604060. -/
def literalKey : KeyStorage where
  key := "secretKey"
  short := by decide +kernel
  mem := arrayMemory "secretKey" 0x604060
  array := 0x604060
  stored i hi := by
    have hoffset : ((0x604060 : BitVec 64) + BitVec.ofNat 64 i - 0x604060).toNat = i := by
      rw [BitVec.add_comm,BitVec.add_sub_cancel,BitVec.toNat_ofNat]
      exact Nat.mod_eq_of_lt (Nat.lt_trans hi (by decide))
    rw [arrayMemory,hoffset,if_pos hi]

/-- The hosts over a megabyte, with the key. -/
def showAllRequest : Json :=
  .object [("command",.string "showOverList"),("date",.string "today"),("overValue",.integer 1),
    ("showAll",.string "secretKey")]

/-- The pointer is 0x654b746572636573, no address of any process, and the child dies of it. -/
theorem right_key_crashes :
    literalKey.pointer = 0x654b746572636573 ∧ literalKey.Presents showAllRequest ∧
      literalKey.parseCmd insertionQsort morningHost oneSubnetMachine.globals (fun _ => 0)
        showAllRequest = .error .secretKey ∧
      ¬literalKey.ShowAllExact showAllRequest := by
  have hmember : showAllRequest.member? "showAll" = some (.string "secretKey") := by
    simp [showAllRequest,Json.member?]
  have hpresents : literalKey.Presents showAllRequest := ⟨"secretKey",hmember,rfl⟩
  have hfault : literalKey.parseShowAll showAllRequest = .error .secretKey := by
    have hcompare : literalKey.compare "secretKey" = none := by decide +kernel
    simp only [KeyStorage.parseShowAll,hmember,Option.bind_eq_bind,Option.bind_some,Json.string?,
      hcompare]
  refine ⟨by decide +kernel,hpresents,?_,fun h => ?_⟩
  · have hdate : AcceptsDate morningHost oneSubnetMachine.globals showAllRequest
        oneSubnetMachine.globals := by
      refine ⟨"today",.datetime "2012-06-18 06:00:00",?_,?_⟩
      · simp [showAllRequest,Json.member?]
      · simp [parseDate,sameIgnoringCase,morningHost]
    have hcmd : showAllRequest.member? "command" = some (.string "showOverList") := by
      simp [showAllRequest,Json.member?]
    obtain ⟨member,hparse⟩ := literalKey.parseCmd_of_accepted insertionQsort
      (fun _ => 0) hdate hcmd
    rw [hparse,hfault]
    rfl
  · have hok := h.granted.mpr hpresents
    rw [hfault] at hok
    exact absurd hok (by simp)

end Flowstatd
