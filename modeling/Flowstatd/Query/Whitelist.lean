import Flowstatd.Framework.Inet
import Flowstatd.Framework.Json
import Flowstatd.Netflow.SubnetTable

/-!
# The whitelist

`LoadWhitelist` fills `whitelist` from the configuration, and the queries scan it up to the first
zero. The loop uses one counter to read the configured list and to write the whitelist, and
advances it twice for an accepted entry.
-/

namespace Flowstatd

open Framework

def maxWhitelist : Nat := 50

/-- The memory from `whitelist` on. The array has `MAX_WHITELIST` elements. -/
abbrev Whitelist := Nat → InAddr

/-- `memset` of the array to zero. -/
def Whitelist.cleared (w : Whitelist) : Whitelist := fun i => if i < maxWhitelist then 0 else w i

/-- The scan of the queries from index `j` on; `rounds` is what `j < MAX_WHITELIST` leaves. -/
def whitelistScanFrom (whitelist : Whitelist) (addr : InAddr) : Nat → Nat → Bool
  | 0, _ => false
  | rounds+1, j =>
    if whitelist j = 0 then false
    else if addr = whitelist j then true
    else whitelistScanFrom whitelist addr rounds (j + 1)

/-- `for (j = 0; whitelist[j] != 0 && j < MAX_WHITELIST; j++)`, whether it finds `addr`. -/
def whitelistScan (whitelist : Whitelist) (addr : InAddr) : Bool :=
  whitelistScanFrom whitelist addr maxWhitelist 0

section Load

/-- The value of a configured element, if it is an address. -/
def parsedAddress? (hostValue : Json) : Option InAddr :=
  match hostValue.string? with
  | none => none
  | some text => if inetAddr text = inaddrNone then none else some (inetAddr text)

/-- One round of the inner loop over the networks. -/
def storeMatch (addr : InAddr) (s : Nat × Whitelist) (net : Subnet) : Nat × Whitelist :=
  if net.Contains addr then (s.1 + 1,Function.update s.2 s.1 addr) else s

def storeMatches (nets : List Subnet) (addr : InAddr) (s : Nat × Whitelist) : Nat × Whitelist :=
  nets.foldl (storeMatch addr) s

/-- One round of the loop over the configured list. -/
def whitelistRound (nets : List Subnet) (elements : List Json) (s : Nat × Whitelist) :
    Nat × Whitelist :=
  let s :=
    match elements[s.1]? >>= parsedAddress? with
    | none => s
    | some addr => storeMatches nets addr s
  (s.1 + 1,s.2)

/-- The loop. The counter goes up in every round, so `MAX_WHITELIST` rounds are enough. -/
def whitelistLoop (nets : List Subnet) (elements : List Json) :
    Nat → Nat × Whitelist → Nat × Whitelist
  | 0, s => s
  | rounds+1, s =>
    if s.1 < maxWhitelist ∧ s.1 < elements.length then
      whitelistLoop nets elements rounds (whitelistRound nets elements s)
    else s

/-- `LoadWhitelist` on what `json_load_file` makes of the file: the return value and the
whitelist, or `none` for the exit on a file that is not JSON. -/
def loadWhitelist (nets : List Subnet) (whitelist : Whitelist) :
    Option Json → Option (Int × Whitelist)
  | none => none
  | some jsonRoot =>
    match jsonRoot.member? "whitelistIps" >>= Json.elements? with
    | none => some (-1,whitelist)
    | some elements =>
      let s := whitelistLoop nets elements maxWhitelist (0,whitelist.cleared)
      some (s.1,s.2)

end Load

section Loop

variable (nets : List Subnet) (elements : List Json)

theorem storeMatches_of_forall_not {nets : List Subnet} {addr : InAddr}
    (h : ∀ net ∈ nets, ¬net.Contains addr) (s : Nat × Whitelist) : storeMatches nets addr s = s := by
  induction nets with
  | nil => rfl
  | cons net nets ih =>
    obtain ⟨hnet,hnets⟩ := List.forall_mem_cons.mp h
    rw [storeMatches,List.foldl_cons,storeMatch,if_neg hnet]
    exact ih hnets

theorem storeMatches_below (nets : List Subnet) (addr : InAddr) (s : Nat × Whitelist) :
    s.1 ≤ (storeMatches nets addr s).1 ∧ ∀ k < s.1, (storeMatches nets addr s).2 k = s.2 k := by
  induction nets generalizing s with
  | nil => exact ⟨le_rfl,fun _ _ => rfl⟩
  | cons net nets ih =>
    rw [storeMatches,List.foldl_cons,← storeMatches]
    obtain ⟨hle,hbelow⟩ := ih (storeMatch addr s net)
    rw [storeMatch] at hle hbelow ⊢
    split_ifs at hle hbelow ⊢
    · refine ⟨Nat.le_of_succ_le hle,fun k hk => ?_⟩
      exact (hbelow k (Nat.lt_succ_of_lt hk)).trans (Function.update_of_ne (Nat.ne_of_lt hk) _ _)
    · exact ⟨hle,hbelow⟩

theorem whitelistRound_below (s : Nat × Whitelist) :
    s.1 < (whitelistRound nets elements s).1 ∧
      ∀ k < s.1, (whitelistRound nets elements s).2 k = s.2 k := by
  rw [whitelistRound]
  cases elements[s.1]? >>= parsedAddress? with
  | none => exact ⟨Nat.lt_succ_self _,fun _ _ => rfl⟩
  | some addr =>
    obtain ⟨hle,hbelow⟩ := storeMatches_below nets addr s
    exact ⟨Nat.lt_succ_of_le hle,hbelow⟩

theorem whitelistLoop_below (rounds : Nat) (s : Nat × Whitelist) :
    ∀ k < s.1, (whitelistLoop nets elements rounds s).2 k = s.2 k := by
  induction rounds generalizing s with
  | zero => exact fun _ _ => rfl
  | succ rounds ih =>
    intro k hk
    rw [whitelistLoop]
    split_ifs
    · obtain ⟨hlt,hbelow⟩ := whitelistRound_below nets elements s
      rw [ih _ k (by omega),hbelow k hk]
    · rfl

end Loop

section Configured

variable {nets : List Subnet} {elements : List Json}

/-- The networks have no common addresses. -/
def DisjointNetworks (nets : List Subnet) : Prop :=
  nets.Pairwise fun s t => ∀ a, ¬(s.Contains a ∧ t.Contains a)

/-- The address is one that the configured list asks to hide. -/
def Configured (nets : List Subnet) (elements : List Json) (a : InAddr) : Prop :=
  (∃ k < maxWhitelist, elements[k]? >>= parsedAddress? = some a) ∧ isOurNet nets a = true

/-- The scan of the queries finds the configured addresses and no others. -/
def ListsConfigured (nets : List Subnet) (elements : List Json) (w : Whitelist) : Prop :=
  ∀ a ≠ 0, whitelistScan w a = true ↔ Configured nets elements a

private theorem whitelistScan_of_gap {w : Whitelist} (h : w 1 = 0) (a : InAddr) :
    whitelistScan w a = true ↔ a ≠ 0 ∧ w 0 = a := by
  have hscan : whitelistScan w a =
      if w 0 = 0 then false else if a = w 0 then true else whitelistScanFrom w a 49 1 := rfl
  have hrest : whitelistScanFrom w a 49 1 = false := by simp [whitelistScanFrom,h]
  rw [hscan,hrest]
  by_cases h0 : w 0 = 0
  · simp only [h0,ite_true]
    exact ⟨fun hf => absurd hf (by decide),fun ⟨hne,heq⟩ => absurd heq.symm hne⟩
  · simp only [h0,ite_false]
    by_cases ha : a = w 0
    · subst ha
      simpa using h0
    · simpa [ha] using fun _ => Ne.symm ha

/-- An address of disjoint networks is stored once, and the counter goes up by one for it. -/
private theorem storeMatches_disjoint (hdisjoint : DisjointNetworks nets) {addr : InAddr}
    (h : isOurNet nets addr = true) (s : Nat × Whitelist) :
    storeMatches nets addr s = (s.1 + 1,Function.update s.2 s.1 addr) := by
  induction nets with
  | nil => simp [isOurNet] at h
  | cons net nets ih =>
    obtain ⟨hnet,hnets⟩ := List.pairwise_cons.mp hdisjoint
    rw [storeMatches,List.foldl_cons,← storeMatches,storeMatch]
    by_cases hc : net.Contains addr
    · rw [if_pos hc]
      exact storeMatches_of_forall_not (fun t ht hct => hnet t ht addr ⟨hc,hct⟩) _
    · rw [if_neg hc]
      have hnot : ¬(addr &&& net.mask = net.net) := hc
      exact ih hnets (by simpa [isOurNet,hnot] using h)

private theorem storeMatches_outside {addr : InAddr} (h : isOurNet nets addr ≠ true)
    (s : Nat × Whitelist) : storeMatches nets addr s = s := by
  refine storeMatches_of_forall_not (fun net hnet hc => h ?_) s
  exact List.any_eq_true.mpr ⟨net,hnet,by simpa [Subnet.Contains] using hc⟩

private theorem firstRound_cases (hdisjoint : DisjointNetworks nets) (w : Whitelist) :
    (∃ addr, elements[0]? >>= parsedAddress? = some addr ∧ isOurNet nets addr = true ∧
      whitelistRound nets elements (0,w) = (2,Function.update w 0 addr)) ∨
    ((∀ a, ¬(elements[0]? >>= parsedAddress? = some a ∧ isOurNet nets a = true)) ∧
      whitelistRound nets elements (0,w) = (1,w)) := by
  rw [whitelistRound]
  cases elements[0]? >>= parsedAddress? with
  | none => exact .inr ⟨by simp,rfl⟩
  | some addr =>
    by_cases hin : isOurNet nets addr = true
    · refine .inl ⟨addr,rfl,hin,?_⟩
      simp only [storeMatches_disjoint hdisjoint hin]
    · refine .inr ⟨?_,by simp only [storeMatches_outside hin]⟩
      rintro a ⟨heq,hina⟩
      exact hin (Option.some.inj heq ▸ hina)

/-- What the first round stores is all that the scan sees: the counter then skips an element of
the array, which stays zero. -/
private theorem whitelistScan_loaded (hdisjoint : DisjointNetworks nets) (w : Whitelist)
    (a : InAddr) :
    whitelistScan (whitelistLoop nets elements maxWhitelist (0,w.cleared)).2 a = true ↔
      a ≠ 0 ∧ elements[0]? >>= parsedAddress? = some a ∧ isOurNet nets a = true := by
  have hcleared (k : Nat) (hk : k < maxWhitelist) : w.cleared k = 0 := if_pos hk
  have hnothing {w' : Whitelist} (h0 : w' 0 = 0)
      (hno : ¬(elements[0]? >>= parsedAddress? = some a ∧ isOurNet nets a = true)) :
      whitelistScan w' a = true ↔
        a ≠ 0 ∧ elements[0]? >>= parsedAddress? = some a ∧ isOurNet nets a = true := by
    have hscan : whitelistScan w' a = false := by
      simp [whitelistScan,maxWhitelist,whitelistScanFrom,h0]
    rw [hscan]
    exact iff_of_false (by decide) fun h => hno h.2
  rw [maxWhitelist,whitelistLoop]
  split_ifs with hguard
  · rcases firstRound_cases hdisjoint w.cleared with ⟨addr,hfirst,hin,hround⟩ | ⟨hno,hround⟩
    · rw [hround]
      have hbelow := whitelistLoop_below nets elements 49
        (2,Function.update w.cleared 0 addr)
      have hstored := (hbelow 0 Nat.zero_lt_two).trans (Function.update_self 0 addr w.cleared)
      have hgap := ((hbelow 1 Nat.one_lt_two).trans
        (Function.update_of_ne Nat.one_ne_zero addr w.cleared)).trans (hcleared 1 (by decide))
      rw [whitelistScan_of_gap hgap,hstored,hfirst]
      constructor
      · rintro ⟨ha,rfl⟩
        exact ⟨ha,rfl,hin⟩
      · rintro ⟨ha,heq,_⟩
        exact ⟨ha,Option.some.inj heq⟩
    · rw [hround]
      have hbelow := whitelistLoop_below nets elements 49 (1,w.cleared)
      exact hnothing ((hbelow 0 Nat.zero_lt_one).trans (hcleared 0 (by decide))) (hno a)
  · have hlen : elements[0]? = none := by
      rw [List.getElem?_eq_none_iff]
      have hlt : (0 : Nat) < 50 := by decide
      exact Nat.not_lt.mp fun h => hguard ⟨hlt,h⟩
    exact hnothing (hcleared 0 (by decide)) (by simp [hlen])

/-- The scan finds the configured addresses exactly when none of them is configured behind the
first element only. -/
theorem whitelist_lists_configured_iff (hdisjoint : DisjointNetworks nets) {jsonRoot : Json}
    (hconfig : jsonRoot.member? "whitelistIps" = some (.array elements)) (w : Whitelist) :
    ∃ ret w', loadWhitelist nets w (some jsonRoot) = some (ret,w') ∧
      (ListsConfigured nets elements w' ↔
        ∀ a ≠ 0, Configured nets elements a → elements[0]? >>= parsedAddress? = some a) := by
  have hload : loadWhitelist nets w (some jsonRoot) =
      some (((whitelistLoop nets elements maxWhitelist (0,w.cleared)).1 : Int),
        (whitelistLoop nets elements maxWhitelist (0,w.cleared)).2) := by
    simp [loadWhitelist,hconfig,Json.elements?]
  refine ⟨_,_,hload,?_⟩
  constructor
  · intro h a ha hwanted
    exact ((whitelistScan_loaded hdisjoint w a).mp ((h a ha).mpr hwanted)).2.1
  · intro h a ha
    rw [whitelistScan_loaded hdisjoint]
    constructor
    · rintro ⟨_,hfirst,hin⟩
      exact ⟨⟨0,by decide,hfirst⟩,hin⟩
    · exact fun hwanted => ⟨ha,h a ha hwanted,hwanted.2⟩

/-- 10.0.0.1 and 10.0.0.2 are to be hidden. -/
def twoHostsConfig : List Json := [.string "10.0.0.1",.string "10.0.0.2"]

/-- The host to hide comes first, a number and an address outside behind it, and then the host
again. -/
def repeatedHostConfig : List Json :=
  [.string "10.0.0.1",.integer 1,.string "8.8.8.8",.string "10.0.0.1"]

theorem whitelist_lists_configured_repeated :
    ∃ ret w', loadWhitelist [statedNetwork 0x0000000a 30,statedNetwork 0x0001000a 30] (fun _ => 0)
        (some (.object [("whitelistIps",.array repeatedHostConfig)])) = some (ret,w') ∧
      ListsConfigured [statedNetwork 0x0000000a 30,statedNetwork 0x0001000a 30]
        repeatedHostConfig w' ∧
      whitelistScan w' 0x0100000a = true := by
  have hdisjoint : DisjointNetworks [statedNetwork 0x0000000a 30,statedNetwork 0x0001000a 30] := by
    refine List.pairwise_pair.mpr fun a ⟨hfirst,hsecond⟩ => ?_
    have hmask : (statedNetwork 0x0000000a 30).mask = (statedNetwork 0x0001000a 30).mask := by
      decide
    rw [Subnet.Contains,hmask] at hfirst
    exact absurd (hfirst.symm.trans hsecond) (by decide)
  have hconfig : (Json.object [("whitelistIps",.array repeatedHostConfig)]).member?
      "whitelistIps" = some (.array repeatedHostConfig) := rfl
  obtain ⟨ret,w',hload,hiff⟩ := whitelist_lists_configured_iff hdisjoint hconfig (fun _ => 0)
  have hlists := hiff.mpr ?_
  · exact ⟨ret,w',hload,hlists,(hlists 0x0100000a (by decide)).mpr
      ⟨⟨0,by decide,by decide +kernel⟩,by decide +kernel⟩⟩
  · rintro a - ⟨⟨k,-,hk⟩,hin⟩
    rcases k with - | - | - | - | k
    · exact hk
    · cases hk
    · have houtside : repeatedHostConfig[2]? >>= parsedAddress? = some 0x08080808 := by
        decide +kernel
      rw [← Option.some.inj (houtside.symm.trans hk)] at hin
      exact absurd hin (by decide +kernel)
    · exact hk
    · cases hk

/-- The second of two accepted addresses is not even looked at. -/
theorem second_host_visible :
    DisjointNetworks [statedNetwork 0x0000000a 30] ∧
      ∃ ret w', loadWhitelist [statedNetwork 0x0000000a 30] (fun _ => 0)
          (some (.object [("whitelistIps",.array twoHostsConfig)])) = some (ret,w') ∧
        Configured [statedNetwork 0x0000000a 30] twoHostsConfig 0x0200000a ∧
        whitelistScan w' 0x0200000a = false ∧
        ¬ListsConfigured [statedNetwork 0x0000000a 30] twoHostsConfig w' := by
  have hwanted : Configured [statedNetwork 0x0000000a 30] twoHostsConfig 0x0200000a :=
    ⟨⟨1,by decide,by decide +kernel⟩,by decide +kernel⟩
  have hmissed : whitelistScan (whitelistLoop [statedNetwork 0x0000000a 30] twoHostsConfig
      maxWhitelist (0,Whitelist.cleared fun _ => 0)).2 0x0200000a = false := by decide +kernel
  refine ⟨List.pairwise_singleton _ _,_,_,rfl,hwanted,hmissed,fun h => ?_⟩
  have hfound := (h 0x0200000a (by decide)).mpr hwanted
  exact absurd (hfound.symm.trans hmissed) (by decide)

end Configured

end Flowstatd
