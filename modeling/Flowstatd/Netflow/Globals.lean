import Mathlib.Data.BitVec
import Mathlib.Data.Fintype.Pi

/-!
# Global data of the daemon

The types of `flowstatd.h` and the globals of `global.c`. Addresses are kept the way the code
keeps them: in network byte order, read as a little-endian 32-bit word.
-/

namespace Flowstatd

abbrev InAddr := BitVec 32
abbrev U32 := BitVec 32
/-- `unsigned long long int` counter. -/
abbrev Counter := BitVec 64

/-- `UPLOAD` and `DOWNLOAD`, the second index of `hflow`. -/
inductive Direction where
  | upload
  | download
deriving DecidableEq

instance : Fintype Direction := ⟨{.upload,.download},fun d => by cases d <;> simp⟩

/-- The fields of `struct tm` that the daemon looks at, in the ranges the C library promises. -/
structure Tm where
  tmYear : Int
  tmMon : Fin 12
  tmMday : Nat
  tmHour : Fin 24
deriving DecidableEq

/-- `struct hostflow`; `sum` is `nflow[SUM]`. -/
structure HostFlow where
  sinAddr : InAddr
  hflow : Fin 24 → Direction → Counter
  nflow : Direction → Counter
  sum : Counter
deriving DecidableEq

def HostFlow.zero : HostFlow := ⟨0,fun _ _ => 0,fun _ => 0,0⟩

/-- `struct subnet`. -/
structure Subnet where
  net : InAddr
  mask : InAddr
  maskBits : BitVec 8
  ipCount : U32
deriving DecidableEq

def Subnet.zero : Subnet := ⟨0,0,0,0⟩

def maxSubnet : Nat := 50
def bufSize : Nat := 8192

/-- The globals that datagrams, rollover, export and import act on. `rcvNetList` has all its
`MAX_SUBNET` elements; the first `nSubnet` are in use. -/
structure Globals where
  localtm : Tm
  ipTable : List HostFlow
  myNet : Subnet
  rcvNetList : List Subnet
  nSubnet : U32
  sumIpCount : U32
deriving DecidableEq

def Globals.nets (g : Globals) : List Subnet := g.rcvNetList.take g.nSubnet.toNat

/-- The arrays have the lengths the code allocates. -/
structure Globals.WellSized (g : Globals) : Prop where
  ipTable : g.ipTable.length = g.sumIpCount.toNat
  rcvNetList : g.rcvNetList.length = maxSubnet
  nSubnet : g.nSubnet.toNat ≤ maxSubnet

theorem Globals.WellSized.nets_length {g : Globals} (h : g.WellSized) :
    g.nets.length = g.nSubnet.toNat := by
  rw [Globals.nets,List.length_take,h.rcvNetList]
  exact Nat.min_eq_left h.nSubnet

end Flowstatd
