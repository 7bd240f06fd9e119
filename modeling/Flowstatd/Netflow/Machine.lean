import Flowstatd.Netflow.Accounting

/-!
# Packet memory and handler state

A handler reads the packet buffer by offset and acts on the globals and on the two static tables
of the version 9 handler. A trace records what it did: which bytes it read, which flows it
passed on, which templates it saw and which layouts it decoded with.
-/

namespace Flowstatd

open Framework

/-- The memory from `packetBuf` on, and `packetLen`, a nonnegative `int`. Nothing is known about
the memory beyond the packet. -/
structure Packet where
  mem : Nat → Byte
  len : Nat
  len_lt : len < 2 ^ 31

namespace Packet

def ntohs (p : Packet) (off : Nat) : BitVec 16 := BitVec.ofNat 16 (beNat (bytesAt p.mem off 2))
def ntohl (p : Packet) (off : Nat) : U32 := BitVec.ofNat 32 (beNat (bytesAt p.mem off 4))
/-- `*((in_addr_t *) (packetBuf + off))`, no byte swap. -/
def load32 (p : Packet) (off : Nat) : U32 := BitVec.ofNat 32 (leNat (bytesAt p.mem off 4))

/-- The buffer of `main` after `memset` and `recvfrom`; `beyond` is the memory after it. -/
def received (datagram : List Byte) (h : datagram.length ≤ bufSize) (beyond : Nat → Byte) :
    Packet where
  mem i := if i < bufSize then datagram.getD i 0 else beyond (i - bufSize)
  len := datagram.length
  len_lt := Nat.lt_of_le_of_lt h (by decide)

theorem received_holds (datagram : List Byte) (h : datagram.length ≤ bufSize)
    (beyond : Nat → Byte) : Holds (received datagram h beyond).mem 0 datagram := by
  refine List.ext_getElem (by simp) fun i hi hi' => ?_
  have hlt : i < bufSize := Nat.lt_of_lt_of_le hi' h
  simp [received,bytesAt,hlt,List.getElem?_eq_getElem hi']

section Load

variable {p : Packet} {off : Nat} {bs : List Byte}

theorem ntohs_of_holds (h : Holds p.mem off bs) (hlen : bs.length = 2) :
    p.ntohs off = BitVec.ofNat 16 (beNat bs) := by
  rw [ntohs,h.bytesAt hlen.symm]

theorem ntohl_of_holds (h : Holds p.mem off bs) (hlen : bs.length = 4) :
    p.ntohl off = BitVec.ofNat 32 (beNat bs) := by
  rw [ntohl,h.bytesAt hlen.symm]

theorem load32_of_holds (h : Holds p.mem off bs) (hlen : bs.length = 4) :
    p.load32 off = BitVec.ofNat 32 (leNat bs) := by
  rw [load32,h.bytesAt hlen.symm]

theorem ntohs_encoded {x : Nat} (h : Holds p.mem off (beBytes 2 x)) (hx : x < 2 ^ 16) :
    (p.ntohs off).toNat = x := by
  rw [ntohs_of_holds h (by simp),beNat_beBytes,BitVec.toNat_ofNat]
  omega

theorem ntohs_word {x : BitVec 16} (h : Holds p.mem off (beBytes 2 x.toNat)) :
    p.ntohs off = x := by
  rw [ntohs_of_holds h (by simp),ofNat_beNat_beBytes 2 (by decide)]

theorem ntohl_word {x : U32} (h : Holds p.mem off (beBytes 4 x.toNat)) : p.ntohl off = x := by
  rw [ntohl_of_holds h (by simp),ofNat_beNat_beBytes 4 (by decide)]

end Load

end Packet

/-- `struct NF_V9_flowset_record`. -/
structure FlowsetRecord where
  type : BitVec 16
  length : BitVec 16
deriving DecidableEq

inductive TemplateType where
  | none
  | template
  | optionsTemplate
deriving DecidableEq

/-- `struct NF_V9_template_table_entry`; `fields` are the first `field_count` of its 128. -/
structure TemplateTableEntry where
  templateType : TemplateType
  recordLength : BitVec 16
  fields : List FlowsetRecord
deriving DecidableEq

def TemplateTableEntry.zero : TemplateTableEntry := ⟨.none,0,[]⟩

/-- `struct NF_V9_source_table_entry`; `templatePtr` is an index of `g_templateTable`. -/
structure SourceTableEntry where
  sourceIp : InAddr
  sourceId : U32
  templatePtr : Option Int
deriving DecidableEq

def SourceTableEntry.zero : SourceTableEntry := ⟨0,0,none⟩

/-- `g_templateTable` by index. The code forms negative indexes too; they name memory in front
of the table. -/
abbrev TemplateTable := Int → TemplateTableEntry

/-- A version 9 exporter: source address and source id. -/
structure Exporter where
  sourceIp : InAddr
  sourceId : U32
deriving DecidableEq

inductive Event where
  | read (off size : Nat)
  | insert (srcAddr dstAddr : InAddr) (flowBytes : U32) (info : NfTimeInfo)
  /-- A template as the exporter sent it, with all its fields. -/
  | template (exporter : Exporter) (templateId : Nat) (fields : List FlowsetRecord)
  /-- A data flowset decoded with the given layout. -/
  | decode (exporter : Exporter) (templateId : Nat) (fields : List FlowsetRecord)
  | sourceCollision (sourceOffset : Int)
deriving DecidableEq

/-- State of the handlers. `stack` is what the uninitialised `FirstPacketTime` holds in the
record iterations to come; `trace` has the latest event first. -/
structure Machine where
  globals : Globals
  templateTable : TemplateTable
  sourceTable : Int → SourceTableEntry
  stack : Nat → U32
  trace : List Event

/-- Every recorded read ends within the first `len` bytes of the packet. -/
def ReadsIn (len : Nat) (trace : List Event) : Prop :=
  ∀ off size, .read off size ∈ trace → off + size ≤ len

theorem readsIn_nil (len : Nat) : ReadsIn len [] := fun _ _ h => absurd h List.not_mem_nil

@[simp] theorem readsIn_append {len : Nat} {xs ys : List Event} :
    ReadsIn len (xs ++ ys) ↔ ReadsIn len xs ∧ ReadsIn len ys := by
  simp only [ReadsIn,List.mem_append]
  exact ⟨fun h => ⟨fun o s hs => h o s (.inl hs),fun o s hs => h o s (.inr hs)⟩,
    fun h o s hs => hs.elim (h.1 o s) (h.2 o s)⟩

@[simp] theorem readsIn_read_cons {len off size : Nat} {xs : List Event} :
    ReadsIn len (.read off size :: xs) ↔ off + size ≤ len ∧ ReadsIn len xs := by
  simp only [ReadsIn,List.mem_cons,Event.read.injEq]
  constructor
  · exact fun h => ⟨h off size (.inl ⟨rfl,rfl⟩),fun o s hs => h o s (.inr hs)⟩
  · rintro ⟨h,hxs⟩ o s (⟨rfl,rfl⟩ | hs)
    · exact h
    · exact hxs o s hs

theorem readsIn_cons {len : Nat} {ev : Event} {xs : List Event}
    (h : ∀ off size, ev ≠ .read off size) : ReadsIn len (ev :: xs) ↔ ReadsIn len xs := by
  simp only [ReadsIn,List.mem_cons]
  constructor
  · exact fun hxs o s hs => hxs o s (.inr hs)
  · rintro hxs o s (heq | hs)
    · exact absurd heq.symm (h o s)
    · exact hxs o s hs

theorem readsIn_of_forall {len : Nat} {xs : List Event}
    (h : ∀ ev ∈ xs, ∀ off size, ev ≠ .read off size) : ReadsIn len xs :=
  fun off size hr => absurd rfl (h _ hr off size)

@[simp] theorem readsIn_reverse {len : Nat} {xs : List Event} :
    ReadsIn len xs.reverse ↔ ReadsIn len xs := by
  simp only [ReadsIn,List.mem_reverse]

namespace Machine

def log (m : Machine) (e : Event) : Machine := { m with trace := e :: m.trace }

def read (m : Machine) (off size : Nat) : Machine := m.log (.read off size)

def insert (localtime : Int → Tm) (m : Machine) (srcAddr dstAddr : InAddr) (flowBytes : U32)
    (info : NfTimeInfo) : Machine :=
  { m with
    globals := insertNfInfoToIpTable localtime m.globals srcAddr dstAddr flowBytes info
    trace := .insert srcAddr dstAddr flowBytes info :: m.trace }

@[simp] theorem log_globals (m : Machine) (e : Event) : (m.log e).globals = m.globals := rfl
@[simp] theorem log_templateTable (m : Machine) (e : Event) :
    (m.log e).templateTable = m.templateTable := rfl
@[simp] theorem log_sourceTable (m : Machine) (e : Event) :
    (m.log e).sourceTable = m.sourceTable := rfl
@[simp] theorem log_stack (m : Machine) (e : Event) : (m.log e).stack = m.stack := rfl
@[simp] theorem log_trace (m : Machine) (e : Event) : (m.log e).trace = e :: m.trace := rfl

@[simp] theorem read_globals (m : Machine) (off size : Nat) :
    (m.read off size).globals = m.globals := rfl
@[simp] theorem read_templateTable (m : Machine) (off size : Nat) :
    (m.read off size).templateTable = m.templateTable := rfl
@[simp] theorem read_sourceTable (m : Machine) (off size : Nat) :
    (m.read off size).sourceTable = m.sourceTable := rfl
@[simp] theorem read_stack (m : Machine) (off size : Nat) :
    (m.read off size).stack = m.stack := rfl
@[simp] theorem read_trace (m : Machine) (off size : Nat) :
    (m.read off size).trace = .read off size :: m.trace := rfl

@[simp] theorem insert_globals (localtime : Int → Tm) (m : Machine) (src dst : InAddr)
    (bytes : U32) (info : NfTimeInfo) :
    (m.insert localtime src dst bytes info).globals =
      insertNfInfoToIpTable localtime m.globals src dst bytes info := rfl
@[simp] theorem insert_templateTable (localtime : Int → Tm) (m : Machine) (src dst : InAddr)
    (bytes : U32) (info : NfTimeInfo) :
    (m.insert localtime src dst bytes info).templateTable = m.templateTable := rfl
@[simp] theorem insert_sourceTable (localtime : Int → Tm) (m : Machine) (src dst : InAddr)
    (bytes : U32) (info : NfTimeInfo) :
    (m.insert localtime src dst bytes info).sourceTable = m.sourceTable := rfl
@[simp] theorem insert_stack (localtime : Int → Tm) (m : Machine) (src dst : InAddr)
    (bytes : U32) (info : NfTimeInfo) :
    (m.insert localtime src dst bytes info).stack = m.stack := rfl
@[simp] theorem insert_trace (localtime : Int → Tm) (m : Machine) (src dst : InAddr)
    (bytes : U32) (info : NfTimeInfo) :
    (m.insert localtime src dst bytes info).trace =
      .insert src dst bytes info :: m.trace := rfl

def ReadsWithin (len : Nat) (m : Machine) : Prop := ReadsIn len m.trace

@[simp] theorem readsWithin_read {len : Nat} {m : Machine} {off size : Nat} :
    (m.read off size).ReadsWithin len ↔ off + size ≤ len ∧ m.ReadsWithin len :=
  readsIn_read_cons

theorem readsWithin_log {len : Nat} {m : Machine} {ev : Event}
    (h : ∀ off size, ev ≠ .read off size) : (m.log ev).ReadsWithin len ↔ m.ReadsWithin len :=
  readsIn_cons h

@[simp] theorem readsWithin_insert {len : Nat} {localtime : Int → Tm} {m : Machine}
    {src dst : InAddr} {bytes : U32} {info : NfTimeInfo} :
    (m.insert localtime src dst bytes info).ReadsWithin len ↔ m.ReadsWithin len :=
  readsIn_cons fun _ _ => Event.noConfusion

/-- The trace of `m` is where the trace of `m'` started from. -/
def Extends (m m' : Machine) : Prop := m.trace <:+ m'.trace

theorem Extends.refl (m : Machine) : m.Extends m := List.suffix_refl _

theorem Extends.trans {a b c : Machine} (h : a.Extends b) (h' : b.Extends c) : a.Extends c :=
  List.IsSuffix.trans h h'

theorem extends_log (m : Machine) (e : Event) : m.Extends (m.log e) := List.suffix_cons _ _

theorem extends_read (m : Machine) (off size : Nat) : m.Extends (m.read off size) :=
  extends_log m _

theorem Extends.readsWithin {len : Nat} {m m' : Machine} (h : m.Extends m')
    (hm : m'.ReadsWithin len) : m.ReadsWithin len :=
  fun off size hr => hm off size (h.subset hr)

end Machine

end Flowstatd
