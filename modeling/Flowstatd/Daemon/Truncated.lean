import Flowstatd.Daemon.Records
import Flowstatd.Netflow.HandlerV5

/-!
# Files that end early

An interrupted export leaves a file that is a prefix of what it should be. `ImportRecord` does not
look at what `gzread` returns, so all that can stop it is the count of the networks.
-/

namespace Flowstatd

open Framework

/-- `ImportRecord` with its return value; there is a file or there is none, and `none` is the end
of the process in `Diep`. -/
def importFile (heap : Nat → Byte) (tmpVal : U32) (g : Globals) :
    Option (List Byte) → Option (Int × Globals)
  | none => some (0,g)
  | some file => (importRecord heap tmpVal g file).map fun g' => (1,g')

/-- The failure is reported, by the return value or by `Diep`, and nothing is overwritten. -/
def FailsCleanly (heap : Nat → Byte) (tmpVal : U32) (g : Globals) (file : Option (List Byte)) :
    Prop :=
  importFile heap tmpVal g file = none ∨ importFile heap tmpVal g file = some (0,g)

section Words

private theorem importRecord_eq_none_iff (heap : Nat → Byte) (tmpVal : U32) (g : Globals)
    (file : List Byte) :
    importRecord heap tmpVal g file = none ↔
      maxSubnet < (gzreadWord (gzreadWord file tmpVal).2 (gzreadWord file tmpVal).1).1.toNat := by
  simp only [importRecord,importRecordBy]
  split_ifs with hmany
  · simpa using hmany
  · simpa using hmany

private theorem gzreadWord_nil (tmpVal : U32) : gzreadWord [] tmpVal = (tmpVal,[]) := by
  simp [gzreadWord,gzread,overlay,ofNat_leNat_leBytes 4 (by decide) tmpVal]

private theorem partial_nSubnet : ∀ n : Fin 51, ∀ k : Fin 5,
    leNat (overlay (leBytes 4 subnetSize) ((leBytes 4 n).take k)) < 51 := by
  decide +kernel

private theorem nSubnet_le {n : Nat} (hn : n ≤ maxSubnet) {file rest : List Byte}
    (h : file <+: leBytes 4 n ++ rest) :
    (gzreadWord file (BitVec.ofNat 32 subnetSize)).1.toNat ≤ maxSubnet := by
  have htake : file.take 4 <+: leBytes 4 n := by
    have hcut := h.take 4
    rwa [List.take_left' (leBytes_length 4 n)] at hcut
  have hlen : (file.take 4).length < 5 := by
    rw [List.length_take]
    omega
  -- `tmpVal` still holds the first word, and what there is of the second lies over it
  have hword := partial_nSubnet ⟨n,Nat.lt_succ_of_le hn⟩ ⟨(file.take 4).length,hlen⟩
  simp only [← List.prefix_iff_eq_take.mp htake] at hword
  simp only [gzreadWord,gzread,leBytes_length,BitVec.toNat_ofNat]
  exact Nat.le_trans (Nat.mod_le _ _) (Nat.le_of_lt_succ hword)

end Words

/-- A file cut off anywhere is refused in one case only: less than the first word is there, and
what the uninitialised `tmpVal` makes of it is too large for a count of networks. -/
theorem truncated_failsCleanly_iff {s : Globals} (hs : s.nSubnet.toNat ≤ maxSubnet)
    {file : List Byte} (hcut : file <+: exportRecord s) (heap : Nat → Byte) (tmpVal : U32)
    (g : Globals) :
    FailsCleanly heap tmpVal g (some file) ↔
      file.length < 4 ∧ maxSubnet < (gzreadWord file tmpVal).1.toNat := by
  have hfails : FailsCleanly heap tmpVal g (some file) ↔
      importRecord heap tmpVal g file = none := by
    rw [FailsCleanly,importFile]
    cases importRecord heap tmpVal g file <;> simp
  rw [hfails,importRecord_eq_none_iff]
  by_cases hshort : file.length < 4
  · have hrest : (gzreadWord file tmpVal).2 = [] :=
      List.drop_of_length_le (by simp; omega)
    rw [hrest,gzreadWord_nil]
    exact ⟨fun h => ⟨hshort,h⟩,And.right⟩
  · refine iff_of_false (Nat.not_lt.mpr ?_) fun h => hshort h.1
    have hword : leBytes 4 subnetSize = leBytes 4 (BitVec.ofNat 32 subnetSize).toNat := rfl
    have hfirst : file.take 4 = leBytes 4 (BitVec.ofNat 32 subnetSize).toNat := by
      have htake := (hcut.take 4).eq_of_length (by simp [exportRecord_eq,Globals.headerBytes]; omega)
      simpa only [exportRecord_eq,Globals.headerBytes,List.append_assoc,
        List.take_left' (leBytes_length 4 _),hword] using htake
    have hlater : file.drop 4 <+: leBytes 4 s.nSubnet.toNat ++ (exportRecord s).drop 8 := by
      have hdrop := hcut.drop 4
      simpa only [exportRecord_eq,Globals.headerBytes,List.append_assoc,
        List.drop_left' (leBytes_length 4 _),← List.drop_drop (i := 4) (j := 4)] using hdrop
    have hread := gzreadWord_append (BitVec.ofNat 32 subnetSize) tmpVal (file.drop 4)
    rw [← hfirst,List.take_append_drop] at hread
    rw [hread]
    exact nSubnet_le hs hlater

/-- An import of the first 40 bytes of a file: two words of a count, one network and eight bytes
of the first host. -/
theorem truncated_failsCleanly_oneSubnet :
    FailsCleanly (fun _ => 0) 0 oneSubnetMachine.globals
        (some ((exportRecord oneSubnetMachine.globals).take 40)) ↔
      ((exportRecord oneSubnetMachine.globals).take 40).length < 4 ∧
        maxSubnet < (gzreadWord ((exportRecord oneSubnetMachine.globals).take 40) 0).1.toNat :=
  truncated_failsCleanly_iff (by decide) (List.take_prefix 40 _) (fun _ => 0) 0
    oneSubnetMachine.globals

/-- The first eight bytes of a file for two networks: the import reports success, and the daemon
with one network now has two. -/
theorem eight_bytes_accepted :
    let saved := exportRecord { oneSubnetMachine.globals with nSubnet := 2 }
    saved.take 8 ≠ saved ∧
      ((importFile (fun _ => 0) 0 oneSubnetMachine.globals (some (saved.take 8))).map
        fun r => (r.1,r.2.nSubnet)) = some (1,2) ∧
      ¬FailsCleanly (fun _ => 0) 0 oneSubnetMachine.globals (some (saved.take 8)) := by
  refine ⟨by decide +kernel,by decide +kernel,?_⟩
  rw [FailsCleanly]
  decide +kernel

end Flowstatd
