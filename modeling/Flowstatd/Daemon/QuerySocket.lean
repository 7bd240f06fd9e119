import Flowstatd.Framework.CString
import Flowstatd.Framework.Loop
import Flowstatd.Netflow.Globals

/-!
# A query on its socket

The child puts the command together from what `recv` gives it, and `SendBufToSock` sends the
response in as many pieces as `send` makes of it.
-/

namespace Flowstatd

open Framework

section Receiving

/-- What a successful `recv` puts into `buf`. -/
structure Chunk where
  bytes : List Byte
  pos : 0 < bytes.length
  le : bytes.length ≤ bufSize - 1

def stream (chunks : List Chunk) : List Byte := chunks.flatMap Chunk.bytes

/-- `command`, `length` and the indexes of `command` written so far. -/
structure Receiving where
  command : List Byte
  length : Nat
  written : List Nat

def Receiving.start : Receiving := ⟨List.replicate bufSize 0,0,[]⟩

def Receiving.strncat (s : Receiving) (buf : List Byte) (n : Nat) : Receiving :=
  { s with
    command := Framework.strncat s.command s.length buf n
    written := s.written ++ strncatWrites s.command s.length buf n }

/-- The receive loop, over what the calls of `recv` give until one returns 0 or -1. -/
def receiveLoop : List Chunk → Receiving → Receiving
  | [], s => s
  | chunk :: chunks, s =>
    let n := chunk.bytes.length
    if s.length + n > bufSize - 1 then
      -- the last call that is made
      s.strncat chunk.bytes (bufSize - 1 - s.length)
    else
      let s := s.strncat chunk.bytes n
      receiveLoop chunks { s with length := s.length + n }

def receive (chunks : List Chunk) : Receiving := receiveLoop chunks .start

def commandString (chunks : List Chunk) : List Byte := cString (receive chunks).command

/-- The array holds the string of the bytes taken so far, and only zeros behind them. -/
structure Assembled (taken : List Byte) (s : Receiving) : Prop where
  command : ∃ u, u.length = taken.length ∧ cString u = cString taken ∧
    s.command = u ++ List.replicate (bufSize - taken.length) 0
  length : s.length = taken.length
  fits : taken.length < bufSize
  written : ∀ i ∈ s.written, i < bufSize

theorem assembled_start : Assembled [] .start := by
  refine ⟨⟨[],rfl,rfl,rfl⟩,rfl,by decide,?_⟩
  simp [Receiving.start]

theorem Assembled.cString_command {taken : List Byte} {s : Receiving} (h : Assembled taken s) :
    cString s.command = cString taken := by
  obtain ⟨u,_,hu,hcommand⟩ := h.command
  rw [hcommand,cString_append_zeros,hu]

/-- A zero among the bytes taken only shortens what is copied; the place of the next copy does not
depend on it. -/
theorem Assembled.strncat {taken : List Byte} {s : Receiving} (h : Assembled taken s)
    (buf : List Byte) {n : Nat} (hn : n ≤ buf.length) (hfits : taken.length + n < bufSize) :
    Assembled (taken ++ buf.take n) { s.strncat buf n with length := s.length + n } := by
  obtain ⟨u,hlen,hu,hcommand⟩ := h.command
  have htake : (buf.take n).length = n := by simp [hn]
  have hcopied : (cString (buf.take n)).length ≤ n := by
    simpa [htake] using cString_length_le (buf.take n)
  have hlength : s.length = u.length := h.length.trans hlen.symm
  refine ⟨⟨u ++ (cString (buf.take n) ++
    List.replicate (n - (cString (buf.take n)).length) 0),?_,?_,?_⟩,?_,?_,?_⟩
  · simp [hlen,htake]
    omega
  · exact cString_append_congr hlen hu (by rw [cString_append_zeros,cString_cString])
  · rw [Receiving.strncat,hcommand,hlength,strncat_zeros (by omega),List.append_assoc,
      List.append_assoc,List.append_assoc,List.replicate_append_replicate]
    simp only [List.length_append,htake]
    congr 3
    omega
  · simp [h.length,htake]
  · simpa [htake] using hfits
  · intro i hi
    simp only [Receiving.strncat,List.mem_append] at hi
    rcases hi with hi | hi
    · exact h.written i hi
    · rw [hcommand,hlength,mem_strncatWrites_zeros] at hi
      omega

theorem Assembled.zero_mem {taken : List Byte} {s : Receiving} (h : Assembled taken s) :
    0 ∈ s.command := by
  obtain ⟨u,_,_,hcommand⟩ := h.command
  have hfits := h.fits
  simp only [hcommand,List.mem_append,List.mem_replicate]
  exact .inr ⟨by omega,trivial⟩

theorem receiveLoop_spec (chunks : List Chunk) {taken : List Byte} {s : Receiving}
    (h : Assembled taken s) :
    cString (receiveLoop chunks s).command =
        cString ((taken ++ stream chunks).take (bufSize - 1)) ∧
      0 ∈ (receiveLoop chunks s).command ∧
      ∀ i ∈ (receiveLoop chunks s).written, i < bufSize := by
  have hfits := h.fits
  induction chunks generalizing taken s with
  | nil =>
    refine ⟨?_,h.zero_mem,h.written⟩
    rw [receiveLoop,h.cString_command,stream,List.flatMap_nil,List.append_nil,
      List.take_of_length_le (by omega)]
  | cons chunk chunks ih =>
    rw [receiveLoop]
    by_cases hover : s.length + chunk.bytes.length > bufSize - 1
    · -- the stream is cut here
      have hlength := h.length
      have hlast := h.strncat chunk.bytes (n := bufSize - 1 - s.length) (by omega) (by omega)
      have htake : (taken ++ stream (chunk :: chunks)).take (bufSize - 1) =
          taken ++ chunk.bytes.take (bufSize - 1 - s.length) := by
        rw [stream,List.flatMap_cons,List.take_append,List.take_append,
          List.take_of_length_le (by omega),h.length]
        simp
        omega
      rw [if_pos hover,htake]
      exact ⟨hlast.cString_command,hlast.zero_mem,hlast.written⟩
    · have hlength := h.length
      have hnext := h.strncat chunk.bytes le_rfl (by omega)
      rw [if_neg hover]
      have hrest := ih hnext hnext.fits
      rwa [List.take_length,List.append_assoc] at hrest

end Receiving

section Sending

/-- What `json_dumps` makes; `strlen` of it is passed on as an `int`. -/
structure Output where
  bytes : List Byte
  len_lt : bytes.length < 2 ^ 31

/-- What the calls of `send` return, by the number of the call and the bytes it is given. -/
structure SendResults where
  result : Nat → Nat → Nat
  pos : ∀ call rest, 0 < rest → 0 < result call rest
  le : ∀ call rest, result call rest ≤ rest

/-- The variables of `SendBufToSock`, the calls of `send` so far and the bytes they sent. -/
structure Sending where
  pos : Nat
  bytessent : Nat
  calls : Nat
  sent : List Byte

def sendRound (send : SendResults) (r : Output) (s : Sending) : Sending :=
  let bytessent := send.result s.calls (r.bytes.length - s.pos)
  { pos := s.pos + bytessent
    bytessent := bytessent
    calls := s.calls + 1
    sent := s.sent ++ (r.bytes.drop s.pos).take bytessent }

/-- The body comes before the first test of `bytessent > 0`. -/
def sendBufToSock (send : SendResults) (r : Output) (fuel : Nat) (s : Sending) :
    Outcome Sending :=
  whileLoop (fun s => 0 < s.bytessent) (fun _ s => .finished (sendRound send r s)) fuel
    (sendRound send r s)

def Sending.start : Sending := ⟨0,0,0,[]⟩

variable {send : SendResults} {r : Output} {s : Sending}

/-- What was sent is the response up to `pos`, and a call that sent nothing had nothing to send. -/
structure SentUpTo (r : Output) (s : Sending) : Prop where
  pos_le : s.pos ≤ r.bytes.length
  sent : s.sent = r.bytes.take s.pos

private theorem SentUpTo.round (h : SentUpTo r s) (send : SendResults) :
    SentUpTo r (sendRound send r s) ∧
      ((sendRound send r s).bytessent = 0 → (sendRound send r s).pos = r.bytes.length) := by
  have hle := send.le s.calls (r.bytes.length - s.pos)
  have hpos := send.pos s.calls (r.bytes.length - s.pos)
  have hstart := h.pos_le
  refine ⟨⟨?_,?_⟩,fun hnone => ?_⟩
  · simp only [sendRound]
    omega
  · simp only [sendRound,h.sent]
    rw [List.take_add]
  · simp only [sendRound] at hnone ⊢
    omega

/-- What is left to send, and the last call, get smaller together. -/
private theorem sendRound_falls (s : Sending)
    (h : SentUpTo r s ∧ (s.bytessent = 0 → s.pos = r.bytes.length)) (hmore : 0 < s.bytessent) :
    ∃ t, Ends (fun _ s => .finished (sendRound send r s)) s t ∧
      (SentUpTo r t ∧ (t.bytessent = 0 → t.pos = r.bytes.length)) ∧
      r.bytes.length - t.pos + t.bytessent < r.bytes.length - s.pos + s.bytessent := by
  refine ⟨sendRound send r s,⟨0,rfl⟩,h.1.round send,?_⟩
  have hle := send.le s.calls (r.bytes.length - s.pos)
  simp only [sendRound]
  omega

/-- The loop ends, with an empty `send`, and the response was sent. -/
theorem sendBufToSock_ends (send : SendResults) (r : Output) :
    ∃ s, Ends (sendBufToSock send r) .start s ∧ s.sent = r.bytes := by
  have hstart : SentUpTo r .start := ⟨by simp [Sending.start],rfl⟩
  obtain ⟨s,hend,⟨hsent,hall⟩,hdone⟩ := ends_of_measure (steady_finished (sendRound send r))
    (fun s => SentUpTo r s ∧ (s.bytessent = 0 → s.pos = r.bytes.length))
    (fun s => r.bytes.length - s.pos + s.bytessent) sendRound_falls (hstart.round send)
  refine ⟨s,hend,?_⟩
  rw [hsent.sent,hall (by omega),List.take_length]

end Sending

/-- However the bytes of a query come in, the command is their first 8191 up to a zero, written
inside the array and ended by a zero there. However `send` cuts the response, all of it is sent
once and in order. -/
theorem query_transported (chunks : List Chunk) (send : SendResults) (r : Output) :
    commandString chunks = cString ((stream chunks).take (bufSize - 1)) ∧
    0 ∈ (receive chunks).command ∧
    (∀ i ∈ (receive chunks).written, i < bufSize) ∧
    (∀ chunks' : List Chunk, stream chunks' = stream chunks →
      commandString chunks' = commandString chunks) ∧
    ∃ s, Ends (sendBufToSock send r) .start s ∧ s.sent = r.bytes := by
  have hstring (chunks : List Chunk) :
      commandString chunks = cString ((stream chunks).take (bufSize - 1)) :=
    (receiveLoop_spec chunks assembled_start).1
  obtain ⟨_,hzero,hwritten⟩ := receiveLoop_spec chunks assembled_start
  refine ⟨hstring chunks,hzero,hwritten,fun chunks' hstream => ?_,sendBufToSock_ends send r⟩
  rw [hstring,hstring,hstream]

end Flowstatd
