import Flowstatd.Daemon.QuerySocket
import Flowstatd.Framework.History

/-!
# The child of a connection

It receives until the client has closed its side or the command is full, answers and exits. The
alarm may come at any time, and `SockExit` then sends a text of its own to the same socket. `Update`
may come any number of times; it returns, or exits where there is no configuration to read.
-/

namespace Flowstatd

open Framework

/-- The text that `SockExit` sends. -/
def timeoutText : List Byte := [0x54,0x69,0x6d,0x65,0x6f,0x75,0x74,0x2e,0x0a]

example : timeoutText = "Timeout.\n".toUTF8.toList.map UInt8.toBitVec := by decide +kernel

/-- What follows a call of `send` in `SendBufToSock` that gave `bytessent`. -/
def Sending.advance (bytes : List Byte) (s : Sending) (bytessent : Nat) : Sending where
  pos := s.pos + bytessent
  bytessent := bytessent
  calls := s.calls + 1
  sent := s.sent ++ (bytes.drop s.pos).take bytessent

/-- `SendBufToSock` calls `send` once more. -/
def Sending.Continues (s : Sending) : Prop := s.calls = 0 ∨ 0 < s.bytessent

instance (s : Sending) : Decidable s.Continues := inferInstanceAs (Decidable (_ ∨ _))

/-- A call of `send` on what is left may give this. -/
def Sending.MaySend (bytes : List Byte) (s : Sending) (bytessent : Nat) : Prop :=
  bytessent ≤ bytes.length - s.pos ∧ (0 < bytes.length - s.pos → 0 < bytessent)

instance (bytes : List Byte) (s : Sending) (bytessent : Nat) :
    Decidable (s.MaySend bytes bytessent) := inferInstanceAs (Decidable (_ ∧ _))

/-- How the child has ended: after its response, after the text of `SockExit`, or otherwise. -/
inductive Ending where
  | answered
  | timedOut
  | failed
deriving DecidableEq

inductive Phase where
  | receiving (s : Receiving)
  | answering (r : Output) (s : Sending)
  /-- in `SockExit` -/
  | timingOut (s : Sending)
  /-- in `Exits`; whether the alarm has come, and the other one of SIGINT and SIGTERM -/
  | exiting (alarmed again : Bool)
  | exited (ending : Ending)

/-- The child, what `recv` has given it so far and what the socket has taken from it. `Settings` is
what the answer depends on besides the command: the whitelist, and where `Update` comes while
`parseCmd` is at work the one before it too. -/
structure QueryChild (Settings : Type) where
  phase : Phase
  /-- The last ones that are read before the answer. -/
  settings : Settings
  received : List Chunk
  delivered : List Byte

inductive ChildEvent (Settings : Type) where
  | recv (chunk : Chunk)
  /-- `recv` gives 0 or -1. -/
  | recvEnds
  | send (bytessent : Nat)
  /-- `send` gives -1. -/
  | sendFails
  /-- `exit`, behind `parseCmd` or in a handler -/
  | exits
  | alarm
  /-- SIGINT or SIGTERM -/
  | terminates
  /-- SIGHUP; without settings `LoadWhitelist` exits. -/
  | hangup (settings : Option Settings)
  /-- Any other signal that ends the child, or a fault. -/
  | dies

def ChildEvent.isHangup {Settings : Type} : ChildEvent Settings → Bool
  | .hangup _ => true
  | _ => false

namespace QueryChild

variable {Settings : Type}

def start (settings : Settings) : QueryChild Settings := ⟨.receiving .start,settings,[],[]⟩

def enters (c : QueryChild Settings) (phase : Phase) : QueryChild Settings :=
  { c with phase := phase }

/-- `parseCmd` on the command; `none` where it ends the child before it sends anything. -/
def answer (respond : List Byte → Option Output) (c : QueryChild Settings) (s : Receiving) :
    QueryChild Settings :=
  match respond (cString s.command) with
  | none => c.enters (.exited .failed)
  | some r => c.enters (.answering r .start)

/-- A successful `recv`. -/
def takes (respond : List Byte → Option Output) (c : QueryChild Settings) (s : Receiving)
    (chunk : Chunk) : QueryChild Settings :=
  let n := chunk.bytes.length
  let c := { c with received := c.received ++ [chunk] }
  if s.length + n > bufSize - 1 then
    c.answer respond (s.strncat chunk.bytes (bufSize - 1 - s.length))
  else
    c.enters (.receiving { s.strncat chunk.bytes n with length := s.length + n })

/-- A call of `send` in `SendBufToSock` on `bytes`. -/
def sends (c : QueryChild Settings) (bytes : List Byte) (s : Sending) (bytessent : Nat)
    (phase : Sending → Phase) : Option (QueryChild Settings) :=
  if s.Continues ∧ s.MaySend bytes bytessent then
    some { c with
      phase := phase (s.advance bytes bytessent)
      delivered := c.delivered ++ (bytes.drop s.pos).take bytessent }
  else none

/-- The handlers came with the `fork`; only the one of the alarm is the child's own. -/
def step (respond : Settings → List Byte → Option Output) (c : QueryChild Settings)
    (a : ChildEvent Settings) : Option (QueryChild Settings) :=
  match c.phase, a with
  | .receiving s, .recv chunk => some (c.takes (respond c.settings) s chunk)
  | .receiving s, .recvEnds => some (c.answer (respond c.settings) s)
  | .receiving _, .alarm => some (c.enters (.timingOut .start))
  | .receiving _, .terminates => some (c.enters (.exiting false false))
  | .receiving _, .hangup (some settings) => some { c with settings := settings }
  | .answering r s, .send n => c.sends r.bytes s n (.answering r)
  | .answering _ s, .sendFails => if s.Continues then some (c.enters (.exited .failed)) else none
  | .answering _ s, .exits => if s.Continues then none else some (c.enters (.exited .answered))
  | .answering _ _, .alarm => some (c.enters (.timingOut .start))
  | .answering _ _, .terminates => some (c.enters (.exiting false false))
  | .timingOut s, .send n => c.sends timeoutText s n .timingOut
  | .timingOut s, .sendFails => if s.Continues then some (c.enters (.exited .failed)) else none
  | .timingOut s, .exits => if s.Continues then none else some (c.enters (.exited .timedOut))
  | .timingOut _, .terminates => some (c.enters (.exiting true false))
  | .exiting alarmed _, .alarm => if alarmed then none else some (c.enters (.timingOut .start))
  | .exiting alarmed again, .terminates =>
    if again then none else some (c.enters (.exiting alarmed true))
  | .exiting _ _, .exits => some (c.enters (.exited .failed))
  | .exited _, _ => none
  -- the answer has been made, and what is read now has no part in it
  | _, .hangup (some _) => some c
  | _, .hangup none => some (c.enters (.exited .failed))
  | _, .dies => some (c.enters (.exited .failed))
  | _, _ => none

end QueryChild

/-- The runs of a child, with what the client, the network and the signals do in any order. -/
abbrev ChildRun {Settings : Type} (respond : Settings → List Byte → Option Output) :
    List (QueryChild Settings × ChildEvent Settings) → QueryChild Settings → Prop :=
  History (fun c => ∃ settings, c = .start settings) fun c a c' => c.step respond a = some c'

section Safety

variable {Settings : Type} {respond : List Byte → Option Output}
  {answers : Settings → List Byte → Option Output} {c c' : QueryChild Settings}

/-- The receive loop has got to `s`. -/
def Receiving.After (chunks : List Chunk) (s : Receiving) : Prop :=
  ∀ rest, receiveLoop (chunks ++ rest) .start = receiveLoop rest s

/-- A part of the response, or nothing. -/
def PartOfResponse (respond : List Byte → Option Output) (received : List Chunk)
    (sent : List Byte) : Prop :=
  sent = [] ∨ ∃ r, respond (commandString received) = some r ∧ sent <+: r.bytes

/-- A part of the response, with a part of the text of `SockExit` behind it. -/
def CutShort (respond : List Byte → Option Output) (received : List Chunk)
    (sent : List Byte) : Prop :=
  ∃ part text, PartOfResponse respond received part ∧ text <+: timeoutText ∧ sent = part ++ text

/-- `SendBufToSock` on `bytes`, after what was delivered before it. -/
structure SendsAfter (bytes before : List Byte) (s : Sending) (delivered : List Byte) : Prop where
  pos_le : s.pos ≤ bytes.length
  delivered : delivered = before ++ bytes.take s.pos
  done : ¬s.Continues → s.pos = bytes.length

/-- What the socket has taken, phase by phase. -/
def Delivers (respond : List Byte → Option Output) (received : List Chunk) (delivered : List Byte) :
    Phase → Prop
  | .receiving s => s.After received ∧ delivered = []
  | .answering r s => respond (commandString received) = some r ∧ SendsAfter r.bytes [] s delivered
  | .timingOut s =>
    ∃ part, PartOfResponse respond received part ∧ SendsAfter timeoutText part s delivered
  | .exiting false _ => PartOfResponse respond received delivered
  | .exited .answered =>
    ∃ r, respond (commandString received) = some r ∧ delivered = r.bytes
  | .exited .timedOut =>
    ∃ part, PartOfResponse respond received part ∧ delivered = part ++ timeoutText
  | .exiting true _ | .exited .failed => CutShort respond received delivered

theorem SendsAfter.start (bytes before : List Byte) : SendsAfter bytes before .start before where
  pos_le := Nat.zero_le _
  delivered := by simp [Sending.start]
  done h := absurd (.inl rfl) h

theorem SendsAfter.advance {bytes before delivered : List Byte} {s : Sending}
    (h : SendsAfter bytes before s delivered) {n : Nat} (hn : s.MaySend bytes n) :
    SendsAfter bytes before (s.advance bytes n) (delivered ++ (bytes.drop s.pos).take n) := by
  have hpos := h.pos_le
  refine ⟨?_,?_,fun hdone => ?_⟩
  · have hle := hn.1
    simp only [Sending.advance]
    omega
  · rw [h.delivered,List.append_assoc,← List.take_add]
    rfl
  · -- a call that sent nothing had nothing left
    simp only [Sending.Continues,Sending.advance] at hdone ⊢
    have hnone := mt hn.2
    omega

theorem SendsAfter.partly {bytes before delivered : List Byte} {s : Sending}
    (h : SendsAfter bytes before s delivered) :
    ∃ text, text <+: bytes ∧ delivered = before ++ text :=
  ⟨bytes.take s.pos,List.take_prefix _ _,h.delivered⟩

theorem SendsAfter.complete {bytes before delivered : List Byte} {s : Sending}
    (h : SendsAfter bytes before s delivered) (hdone : ¬s.Continues) :
    delivered = before ++ bytes := by
  rw [h.delivered,h.done hdone,List.take_length]

theorem PartOfResponse.cutShort {received : List Chunk} {sent : List Byte}
    (h : PartOfResponse respond received sent) : CutShort respond received sent :=
  ⟨sent,[],h,List.nil_prefix,by simp⟩

/-- Where nothing but the response can have been sent. -/
theorem Delivers.part {received : List Chunk} {delivered : List Byte} {phase : Phase}
    (h : Delivers respond received delivered phase)
    (hphase : (∃ s, phase = .receiving s) ∨ (∃ r s, phase = .answering r s) ∨
      ∃ again, phase = .exiting false again) : PartOfResponse respond received delivered := by
  rcases hphase with ⟨s,rfl⟩ | ⟨r,s,rfl⟩ | ⟨again,rfl⟩
  · exact .inl h.2
  · obtain ⟨text,htext,hdelivered⟩ := h.2.partly
    refine .inr ⟨r,h.1,?_⟩
    rw [hdelivered]
    exact htext
  · exact h

theorem Delivers.cutShort {received : List Chunk} {delivered : List Byte} {phase : Phase}
    (h : Delivers respond received delivered phase)
    (hphase : ∀ ending, phase ≠ .exited ending) : CutShort respond received delivered := by
  cases phase with
  | receiving s => exact (h.part (.inl ⟨s,rfl⟩)).cutShort
  | answering r s => exact (h.part (.inr (.inl ⟨r,s,rfl⟩))).cutShort
  | timingOut s =>
    obtain ⟨part,hpart,hsends⟩ := h
    obtain ⟨text,htext,hdelivered⟩ := hsends.partly
    exact ⟨part,text,hpart,htext,hdelivered⟩
  | exiting alarmed again =>
    cases alarmed with
    | false => exact PartOfResponse.cutShort h
    | true => exact h
  | exited ending => exact absurd rfl (hphase ending)

/-- The loop has ended with `s`, so its command is the one answered. -/
theorem Delivers.answer {s : Receiving} (h : receiveLoop c.received .start = s)
    (hnone : c.delivered = []) :
    Delivers respond (c.answer respond s).received (c.answer respond s).delivered
      (c.answer respond s).phase := by
  have hcommand : commandString c.received = cString s.command := by
    rw [commandString,receive,h]
  rw [QueryChild.answer,← hcommand]
  cases hr : respond (commandString c.received) with
  | none => exact PartOfResponse.cutShort (.inl hnone)
  | some r =>
    refine ⟨hr,?_⟩
    simp only [QueryChild.enters,hnone]
    exact .start _ _

theorem Delivers.takes {s : Receiving} (h : s.After c.received) (hnone : c.delivered = [])
    (chunk : Chunk) :
    Delivers respond (c.takes respond s chunk).received (c.takes respond s chunk).delivered
      (c.takes respond s chunk).phase := by
  simp only [QueryChild.takes]
  split_ifs with hover
  · -- the loop is left behind the bytes that still fit
    apply Delivers.answer
    · have hafter := h [chunk]
      rw [receiveLoop,if_pos hover] at hafter
      exact hafter
    · exact hnone
  · refine ⟨fun rest => ?_,hnone⟩
    have hafter := h (chunk :: rest)
    rw [receiveLoop,if_neg hover] at hafter
    simp only [QueryChild.enters,List.append_assoc,List.singleton_append]
    exact hafter

theorem QueryChild.answer_settings (s : Receiving) :
    (c.answer respond s).settings = c.settings := by
  rw [answer]
  split <;> rfl

theorem QueryChild.takes_settings (s : Receiving) (chunk : Chunk) :
    (c.takes respond s chunk).settings = c.settings := by
  simp only [takes]
  split_ifs
  · exact answer_settings _
  · rfl

theorem QueryChild.sends_some {bytes : List Byte} {s : Sending} {n : Nat} {phase : Sending → Phase}
    (h : c.sends bytes s n phase = some c') :
    s.MaySend bytes n ∧ c'.settings = c.settings ∧ c'.received = c.received ∧
      c'.phase = phase (s.advance bytes n) ∧
      c'.delivered = c.delivered ++ (bytes.drop s.pos).take n := by
  simp only [sends] at h
  split_ifs at h with hcond
  obtain rfl := Option.some.inj h
  exact ⟨hcond.2,rfl,rfl,rfl,rfl⟩

/-- Each event keeps what the socket has taken in line with the phase. -/
theorem Delivers.step {a : ChildEvent Settings}
    (h : Delivers (answers c.settings) c.received c.delivered c.phase)
    (hstep : c.step answers a = some c') :
    Delivers (answers c'.settings) c'.received c'.delivered c'.phase := by
  obtain ⟨phase,settings,received,delivered⟩ := c
  have hcut := h.cutShort
  have hpart := h.part
  cases phase with
  | receiving s =>
    have hpart := hpart (.inl ⟨s,rfl⟩)
    cases a with
    | recv chunk =>
      obtain rfl := Option.some.inj hstep
      rw [QueryChild.takes_settings]
      exact .takes h.1 h.2 chunk
    | recvEnds =>
      obtain rfl := Option.some.inj hstep
      rw [QueryChild.answer_settings]
      exact .answer (by simpa [receiveLoop] using h.1 []) h.2
    | alarm =>
      obtain rfl := Option.some.inj hstep
      exact ⟨_,hpart,.start _ _⟩
    | terminates =>
      obtain rfl := Option.some.inj hstep
      exact hpart
    | hangup loaded =>
      cases loaded with
      | some settings =>
        obtain rfl := Option.some.inj hstep
        exact h
      | none =>
        obtain rfl := Option.some.inj hstep
        exact hpart.cutShort
    | dies =>
      obtain rfl := Option.some.inj hstep
      exact hpart.cutShort
    | send | sendFails | exits => simp [QueryChild.step] at hstep
  | answering r s =>
    have hpart := hpart (.inr (.inl ⟨r,s,rfl⟩))
    cases a with
    | send n =>
      obtain ⟨hn,hsettings,hreceived,hphase,hdelivered⟩ := QueryChild.sends_some hstep
      rw [hsettings,hreceived,hphase,hdelivered]
      exact ⟨h.1,h.2.advance hn⟩
    | sendFails =>
      simp only [QueryChild.step,Option.ite_none_right_eq_some,Option.some.injEq] at hstep
      obtain ⟨_,rfl⟩ := hstep
      exact hpart.cutShort
    | exits =>
      simp only [QueryChild.step,Option.ite_none_left_eq_some,Option.some.injEq] at hstep
      obtain ⟨hdone,rfl⟩ := hstep
      exact ⟨r,h.1,h.2.complete hdone⟩
    | alarm =>
      obtain rfl := Option.some.inj hstep
      exact ⟨_,hpart,.start _ _⟩
    | terminates =>
      obtain rfl := Option.some.inj hstep
      exact hpart
    | hangup loaded =>
      cases loaded with
      | some settings =>
        obtain rfl := Option.some.inj hstep
        exact h
      | none =>
        obtain rfl := Option.some.inj hstep
        exact hpart.cutShort
    | dies =>
      obtain rfl := Option.some.inj hstep
      exact hpart.cutShort
    | recv | recvEnds => simp [QueryChild.step] at hstep
  | timingOut s =>
    have hcut := hcut fun _ => Phase.noConfusion
    cases a with
    | send n =>
      obtain ⟨hn,hsettings,hreceived,hphase,hdelivered⟩ := QueryChild.sends_some hstep
      obtain ⟨part,hpart,hsends⟩ := h
      rw [hsettings,hreceived,hphase,hdelivered]
      exact ⟨part,hpart,hsends.advance hn⟩
    | sendFails =>
      simp only [QueryChild.step,Option.ite_none_right_eq_some,Option.some.injEq] at hstep
      obtain ⟨_,rfl⟩ := hstep
      exact hcut
    | exits =>
      simp only [QueryChild.step,Option.ite_none_left_eq_some,Option.some.injEq] at hstep
      obtain ⟨hdone,rfl⟩ := hstep
      obtain ⟨part,hpart,hsends⟩ := h
      exact ⟨part,hpart,hsends.complete hdone⟩
    | hangup loaded =>
      cases loaded with
      | some settings =>
        obtain rfl := Option.some.inj hstep
        exact h
      | none =>
        obtain rfl := Option.some.inj hstep
        exact hcut
    | terminates | dies =>
      obtain rfl := Option.some.inj hstep
      exact hcut
    | recv | recvEnds | alarm => simp [QueryChild.step] at hstep
  | exiting alarmed again =>
    have hcut := hcut fun _ => Phase.noConfusion
    cases a with
    | alarm =>
      cases alarmed with
      | false =>
        obtain rfl := Option.some.inj hstep
        exact ⟨_,h,.start _ _⟩
      | true => simp [QueryChild.step] at hstep
    | terminates =>
      simp only [QueryChild.step,Option.ite_none_left_eq_some,Option.some.injEq] at hstep
      obtain ⟨_,rfl⟩ := hstep
      cases alarmed <;> exact h
    | hangup loaded =>
      cases loaded with
      | some settings =>
        obtain rfl := Option.some.inj hstep
        exact h
      | none =>
        obtain rfl := Option.some.inj hstep
        exact hcut
    | exits | dies =>
      obtain rfl := Option.some.inj hstep
      exact hcut
    | recv | recvEnds | send | sendFails => simp [QueryChild.step] at hstep
  | exited ending => cases a <;> simp [QueryChild.step] at hstep

theorem ChildRun.delivers {past : List (QueryChild Settings × ChildEvent Settings)}
    (h : ChildRun answers past c) :
    Delivers (answers c.settings) c.received c.delivered c.phase := by
  induction h with
  | start hc =>
    obtain ⟨settings,rfl⟩ := hc
    exact ⟨fun rest => rfl,rfl⟩
  | step _ hstep ih => exact ih.step hstep

end Safety

section Progress

variable {Settings : Type} {respond : Settings → List Byte → Option Output}
  {c c' : QueryChild Settings}

/-- How many more calls of `send` there can be. -/
def Sending.left (bytes : List Byte) (s : Sending) : Nat :=
  bytes.length - s.pos + if s.Continues then 1 else 0

/-- How many more events other than hangups there can be. -/
def Phase.left : Phase → Nat
  | .receiving s => bufSize - s.length + 2 ^ 31 + 17
  | .answering r s => s.left r.bytes + 16
  | .exiting false again => if again then 14 else 15
  | .timingOut s => s.left timeoutText + 3
  | .exiting true again => if again then 1 else 2
  | .exited _ => 0

theorem Sending.left_start (bytes : List Byte) : Sending.start.left bytes = bytes.length + 1 := by
  simp [left,start,Continues]

theorem timeoutText_length : timeoutText.length = 9 := rfl

theorem Sending.left_advance {bytes : List Byte} {s : Sending} {n : Nat} (hmore : s.Continues)
    (hn : s.MaySend bytes n) : (s.advance bytes n).left bytes < s.left bytes := by
  have hle := hn.1
  have hpos := hn.2
  simp only [left,if_pos hmore]
  by_cases hlast : 0 < n
  · have hcall : (s.advance bytes n).Continues := .inr hlast
    rw [if_pos hcall]
    simp only [advance]
    omega
  · -- nothing was left
    have hcall : ¬(s.advance bytes n).Continues := by simp [advance,Continues,hlast]
    rw [if_neg hcall]
    simp only [advance]
    omega

theorem QueryChild.left_sends {bytes : List Byte} {s : Sending} {n : Nat} {phase : Sending → Phase}
    (h : c.sends bytes s n phase = some c') :
    ∃ s', c'.phase = phase s' ∧ s'.left bytes < s.left bytes := by
  have hphase := (sends_some h).2.2.2.1
  simp only [sends] at h
  split_ifs at h with hcond
  exact ⟨_,hphase,Sending.left_advance hcond.1 hcond.2⟩

theorem QueryChild.left_answer (respond : List Byte → Option Output) (c : QueryChild Settings)
    (s : Receiving) : (c.answer respond s).phase.left < 2 ^ 31 + 17 := by
  rw [answer]
  cases respond (cString s.command) with
  | none => simp [enters,Phase.left]
  | some r =>
    have hlen := r.len_lt
    simp only [enters,Phase.left,Sending.left_start]
    omega

theorem QueryChild.left_takes {respond : List Byte → Option Output} {s : Receiving}
    (chunk : Chunk) :
    (c.takes respond s chunk).phase.left < bufSize - s.length + 2 ^ 31 + 17 := by
  simp only [takes]
  split_ifs with hover
  · have hlt := left_answer respond { c with received := c.received ++ [chunk] }
      (s.strncat chunk.bytes (bufSize - 1 - s.length))
    omega
  · have hpos := chunk.pos
    have hsize : 0 < bufSize := by decide
    simp only [enters,Phase.left]
    omega

theorem QueryChild.left_hangup {loaded : Option Settings}
    (hstep : c.step respond (.hangup loaded) = some c') : c'.phase.left ≤ c.phase.left := by
  obtain ⟨phase,settings,received,delivered⟩ := c
  cases loaded with
  | none =>
    cases phase with
    | exited ending => simp [step] at hstep
    | receiving | answering | timingOut | exiting =>
      obtain rfl := Option.some.inj hstep
      exact Nat.zero_le _
  | some settings =>
    cases phase with
    | exited ending => simp [step] at hstep
    | receiving | answering | timingOut | exiting =>
      obtain rfl := Option.some.inj hstep
      exact le_rfl

theorem QueryChild.left_step {a : ChildEvent Settings} (ha : a.isHangup = false)
    (hstep : c.step respond a = some c') : c'.phase.left < c.phase.left := by
  obtain ⟨phase,settings,received,delivered⟩ := c
  cases phase with
  | receiving s =>
    cases a with
    | recv chunk =>
      obtain rfl := Option.some.inj hstep
      exact left_takes chunk
    | recvEnds =>
      obtain rfl := Option.some.inj hstep
      have hlt := left_answer (respond settings) ⟨.receiving s,settings,received,delivered⟩ s
      exact hlt.trans_le (by simp only [Phase.left]; omega)
    | alarm | terminates | dies =>
      obtain rfl := Option.some.inj hstep
      simp only [enters,Phase.left,Sending.left_start,timeoutText_length,Bool.false_eq_true,if_false]
      omega
    | hangup => contradiction
    | send | sendFails | exits => simp [step] at hstep
  | answering r s =>
    cases a with
    | send n =>
      obtain ⟨s',hphase,hlt⟩ := left_sends hstep
      rw [hphase]
      simp only [Phase.left]
      omega
    | sendFails | exits =>
      simp only [step,Option.ite_none_right_eq_some,Option.ite_none_left_eq_some,
        Option.some.injEq] at hstep
      obtain ⟨_,rfl⟩ := hstep
      simp [enters,Phase.left]
    | alarm | terminates | dies =>
      obtain rfl := Option.some.inj hstep
      simp only [enters,Phase.left,Sending.left_start,timeoutText_length,Bool.false_eq_true,if_false]
      omega
    | hangup => contradiction
    | recv | recvEnds => simp [step] at hstep
  | timingOut s =>
    cases a with
    | send n =>
      obtain ⟨s',hphase,hlt⟩ := left_sends hstep
      rw [hphase]
      simp only [Phase.left]
      omega
    | sendFails | exits =>
      simp only [step,Option.ite_none_right_eq_some,Option.ite_none_left_eq_some,
        Option.some.injEq] at hstep
      obtain ⟨_,rfl⟩ := hstep
      simp [enters,Phase.left]
    | terminates | dies =>
      obtain rfl := Option.some.inj hstep
      simp [enters,Phase.left]
    | hangup => contradiction
    | recv | recvEnds | alarm => simp [step] at hstep
  | exiting alarmed again =>
    cases a with
    | alarm | terminates =>
      simp only [step,Option.ite_none_left_eq_some,Option.some.injEq] at hstep
      obtain ⟨hfirst,rfl⟩ := hstep
      cases alarmed <;> cases again <;>
        simp_all [enters,Phase.left,Sending.left_start,timeoutText_length]
    | exits | dies =>
      obtain rfl := Option.some.inj hstep
      cases alarmed <;> cases again <;> simp [enters,Phase.left]
    | hangup => contradiction
    | recv | recvEnds | send | sendFails => simp [step] at hstep
  | exited ending => cases a <;> simp [step] at hstep

theorem ChildRun.bounded {past : List (QueryChild Settings × ChildEvent Settings)}
    (h : ChildRun respond past c) :
    (past.countP fun t => !t.2.isHangup) + c.phase.left ≤ bufSize + 2 ^ 31 + 17 := by
  induction h with
  | start hc =>
    obtain ⟨settings,rfl⟩ := hc
    simp [QueryChild.start,Phase.left,Receiving.start]
  | @step past c c' a _ hstep ih =>
    rw [List.countP_cons]
    cases ha : a.isHangup with
    | false =>
      have hlt := QueryChild.left_step ha hstep
      simp only [Bool.not_false,if_true]
      omega
    | true =>
      cases a with
      | hangup loaded =>
        have hle := QueryChild.left_hangup hstep
        simp only [Bool.not_true,Bool.false_eq_true,if_false]
        omega
      | _ => contradiction

/-- Until the child has exited the alarm is still to come, or it is at an exit, or it sends the text
of `SockExit`. -/
theorem QueryChild.awaits (respond : Settings → List Byte → Option Output)
    (hphase : ∀ ending, c.phase ≠ .exited ending) :
    (c.step respond .alarm).isSome ∨ (c.step respond .exits).isSome ∨
      ∃ s, c.phase = .timingOut s ∧ s.Continues := by
  obtain ⟨phase,settings,received,delivered⟩ := c
  cases phase with
  | receiving s => exact .inl rfl
  | answering r s => exact .inl rfl
  | timingOut s =>
    by_cases hmore : s.Continues
    · exact .inr (.inr ⟨s,rfl,hmore⟩)
    · exact .inr (.inl (by simp [step,hmore]))
  | exiting alarmed again => exact .inr (.inl rfl)
  | exited ending => exact absurd rfl (hphase ending)

end Progress

section Answers

variable {Settings : Type} {respond : List Byte → Option Output}

theorem Delivers.sent {received : List Chunk} {delivered : List Byte} {phase : Phase}
    (h : Delivers respond received delivered phase) : CutShort respond received delivered := by
  by_cases hphase : ∀ ending, phase ≠ .exited ending
  · exact h.cutShort hphase
  · simp only [ne_eq,not_forall,not_not] at hphase
    obtain ⟨ending,rfl⟩ := hphase
    cases ending with
    | answered =>
      obtain ⟨r,hr,hdelivered⟩ := h
      exact PartOfResponse.cutShort (.inr ⟨r,hr,by rw [hdelivered]⟩)
    | timedOut =>
      obtain ⟨part,hpart,hdelivered⟩ := h
      exact ⟨part,timeoutText,hpart,List.prefix_rfl,hdelivered⟩
    | failed => exact h

/-- Whatever the client, the network and the signals do: but for hangups the child takes no more
than a bounded number of events, and until it has exited the alarm is still to come, or it is at an
exit, or it sends the text of `SockExit`. What it has sent then is the response to the command
received, or a part of it with that text or a part of the text behind it. -/
theorem child_answers (respond : Settings → List Byte → Option Output)
    (past : List (QueryChild Settings × ChildEvent Settings)) (c : QueryChild Settings)
    (h : ChildRun respond past c) :
    (past.countP fun t => !t.2.isHangup) ≤ bufSize + 2 ^ 31 + 17 ∧
    ((∀ ending, c.phase ≠ .exited ending) →
      (c.step respond .alarm).isSome ∨ (c.step respond .exits).isSome ∨
        ∃ s, c.phase = .timingOut s ∧ s.Continues) ∧
    (c.phase = .exited .answered →
      ∃ r, respond c.settings (commandString c.received) = some r ∧ c.delivered = r.bytes) ∧
    (c.phase = .exited .timedOut →
      ∃ part, PartOfResponse (respond c.settings) c.received part ∧
        c.delivered = part ++ timeoutText) ∧
    CutShort (respond c.settings) c.received c.delivered := by
  have hdelivers := h.delivers
  refine ⟨(Nat.le_add_right _ _).trans h.bounded,QueryChild.awaits respond,fun hphase => ?_,
    fun hphase => ?_,hdelivers.sent⟩
  · rwa [hphase] at hdelivers
  · rwa [hphase] at hdelivers

def emptyObject : Output := ⟨[0x7b,0x7d],by decide⟩

/-- `a` is 1. -/
def oneMember : Output := ⟨[0x7b,0x22,0x61,0x22,0x3a,0x31,0x7d],by decide⟩

/-- A child that answers nothing or one member, by what it has read last. -/
def lastRead (shown : Bool) (_ : List Byte) : Option Output :=
  some (if shown then oneMember else emptyObject)

/-- Two hangups, the second one with the alarm behind the first byte of the response. -/
def alarmedEvents : List (ChildEvent Bool) :=
  [.hangup (some true),.recv ⟨[0x7b],by decide,by decide⟩,.recvEnds,.send 1,.hangup (some false),
    .alarm,.send 9,.send 0,.exits]

def childAfter (events : List (ChildEvent Bool)) :
    List (QueryChild Bool × ChildEvent Bool) × QueryChild Bool :=
  trailFrom (QueryChild.step lastRead) events (.start false)

theorem childAfter_run (events : List (ChildEvent Bool)) :
    ChildRun lastRead (childAfter events).1 (childAfter events).2 := by
  apply History.trailFrom
  exact ⟨false,rfl⟩

theorem child_answers_alarmed :
    (childAfter alarmedEvents).2.phase = .exited .timedOut ∧
      ∃ part, PartOfResponse (lastRead (childAfter alarmedEvents).2.settings)
        (childAfter alarmedEvents).2.received part ∧
      (childAfter alarmedEvents).2.delivered = part ++ timeoutText :=
  ⟨by rfl,(child_answers _ _ _ (childAfter_run alarmedEvents)).2.2.2.1 (by rfl)⟩

/-- The closing brace, the last byte of a JSON object. -/
def closingBrace : Byte := 0x7d

theorem closingBrace_timeoutText : closingBrace ∉ timeoutText := by decide

/-- The texts of JSON objects end with the brace that closes them, and none goes on as another. -/
structure ObjectTexts (respond : Settings → List Byte → Option Output) : Prop where
  closed : ∀ settings command r, respond settings command = some r →
    r.bytes.getLast? = some closingBrace
  prefixFree : ∀ settings command r settings' command' r', respond settings command = some r →
    respond settings' command' = some r' → r.bytes <+: r'.bytes → r.bytes = r'.bytes

theorem ObjectTexts.complete {respond : Settings → List Byte → Option Output}
    (h : ObjectTexts respond) {settings settings' : Settings} {received : List Chunk}
    {sent command : List Byte} {r : Output} (hcut : CutShort (respond settings') received sent)
    (hr : respond settings command = some r) (hsent : r.bytes <+: sent) :
    ∃ r', respond settings' (commandString received) = some r' ∧ r.bytes = r'.bytes := by
  obtain ⟨part,text,hpart,htext,rfl⟩ := hcut
  have hlast := h.closed settings command r hr
  -- a text that ends with a brace cannot reach into the one of `SockExit`
  have hinside : r.bytes <+: part := by
    rcases List.prefix_or_prefix_of_prefix hsent (List.prefix_append part text) with hle | ⟨t,ht⟩
    · exact hle
    · rw [← ht,List.prefix_append_right_inj] at hsent
      cases t using List.reverseRecOn with
      | nil => rw [← ht,List.append_nil]
      | append_singleton t b =>
        rw [← ht,← List.append_assoc,List.getLast?_concat,Option.some.injEq] at hlast
        have hmem : b ∈ timeoutText := (hsent.trans htext).subset (by simp)
        exact absurd (hlast ▸ hmem) closingBrace_timeoutText
  rcases hpart with rfl | ⟨r',hr',hsub⟩
  · rw [List.prefix_nil.mp hinside] at hlast
    simp at hlast
  · exact ⟨r',hr',h.prefixFree settings command r _ _ r' hr hr' (hinside.trans hsub)⟩

theorem objectTexts_lastRead : ObjectTexts lastRead where
  closed := by
    intro shown command r hr
    obtain rfl := Option.some.inj hr
    cases shown <;> rfl
  prefixFree := by
    intro shown command r shown' command' r' hr hr' hle
    obtain rfl := Option.some.inj hr
    obtain rfl := Option.some.inj hr'
    revert hle
    cases shown <;> cases shown' <;> decide

/-- A client that reads a whole response, with anything behind it and at any time, has the response
to the command received; an interrupted child never makes it look like another one. -/
theorem complete_response_is_own (respond : Settings → List Byte → Option Output)
    (past : List (QueryChild Settings × ChildEvent Settings)) (c : QueryChild Settings)
    (h : ChildRun respond past c) (htexts : ObjectTexts respond) (settings : Settings)
    (command : List Byte) (r : Output) (hr : respond settings command = some r)
    (hsent : r.bytes <+: c.delivered) :
    ∃ r', respond c.settings (commandString c.received) = some r' ∧ r.bytes = r'.bytes :=
  htexts.complete h.delivers.sent hr hsent

/-- The alarm comes behind the whole response. -/
def lateEvents : List (ChildEvent Bool) :=
  [.hangup (some true),.recv ⟨[0x7b],by decide,by decide⟩,.recvEnds,.send 7,.alarm,.send 3,.dies]

theorem complete_response_is_own_late :
    (childAfter lateEvents).2.delivered = oneMember.bytes ++ timeoutText.take 3 ∧
      (∃ r', lastRead (childAfter lateEvents).2.settings
        (commandString (childAfter lateEvents).2.received) = some r' ∧
        oneMember.bytes = r'.bytes) ∧
      ∃ r', lastRead false (commandString (childAfter lateEvents).2.received) = some r' ∧
        oneMember.bytes ≠ r'.bytes := by
  have hdelivered : (childAfter lateEvents).2.delivered =
      oneMember.bytes ++ timeoutText.take 3 := rfl
  refine ⟨hdelivered,complete_response_is_own _ _ _ (childAfter_run lateEvents)
    objectTexts_lastRead true [] oneMember rfl ?_,emptyObject,rfl,by decide⟩
  rw [hdelivered]
  exact List.prefix_append _ _

end Answers

end Flowstatd
