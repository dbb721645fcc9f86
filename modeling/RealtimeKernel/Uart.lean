import RealtimeKernel.CStrings
import RealtimeKernel.MemoryPool
import RealtimeKernel.Lib.Frames

/-!
# `rpi.c`: bytes to the UART over SPI

The UART hangs on an SPI controller that takes words of up to three bytes.  `spi_send_recv`
sends a burst of bytes in such words; `uart_puts` cuts a text into bursts, each no longer than
the free space the UART reports before it.

The controller answers every word it is given; the answers may be any.  The loops that wait for
its FIFOs only read the status and are left out.
-/

namespace RealtimeKernel

open Lib

/-- The registers a word is written to: more words of the burst are to come, or none. -/
inductive SpiDataReg
  | txholdRega
  | ioRega
  deriving DecidableEq

/-- A word that was written, and the word that was then read from `IO_REGa`. -/
structure SpiTransfer where
  reg : SpiDataReg
  data : U32
  answer : U32

/-- The controller: what it answers to each word, and the transfers so far. -/
structure Spi where
  answers : ℕ → U32
  log : List SpiTransfer

/-! ### Translation -/

/-- `spi[channel]->reg = data`, and the answer. -/
def Spi.transfer (spi : Spi) (reg : SpiDataReg) (data : U32) : U32 × Spi :=
  (spi.answers spi.log.length,
    { spi with log := spi.log ++ [⟨reg, data, spi.answers spi.log.length⟩] })

/-- The first inner loop of `spi_send_recv` with `n` passes left: three passes make `count`
reach 24.  Its results are `data`, `sendidx` and `count`. -/
def spiFill (sendbuf : List U8) (sendlen : ℕ) :
    ℕ → U32 → ℕ → ℕ → Except Fault (U32 × ℕ × ℕ)
  | 0, data, sendidx, count => .ok (data, sendidx, count)
  | n + 1, data, sendidx, count =>
    if sendidx < sendlen ∧ count < 24 then
      match sendbuf[sendidx]? with
      | some c =>
        spiFill sendbuf sendlen n (data ||| (c.setWidth 32 <<< (16 - count))) (sendidx + 1)
          (count + 8)
      | none => .error .outOfBounds
    else .ok (data, sendidx, count)

/-- The second inner loop of `spi_send_recv`, which stores `n` bytes of the answer. -/
def spiDrain (data : U32) : ℕ → List U8 → List U8
  | 0, recvbuf => recvbuf
  | n + 1, recvbuf => spiDrain data n (recvbuf ++ [(data >>> (8 * n)).setWidth 8])

/-- The outer loop of `spi_send_recv`; `recvbuf` holds the bytes stored so far. -/
def spiTransact (sendbuf : List U8) (sendlen recvlen : ℕ) :
    ℕ → Spi → ℕ → List U8 → Except Fault (List U8 × Spi)
  | 0, _, _, _ => .error .endless
  | n + 1, spi, sendidx, recvbuf =>
    if sendidx < sendlen ∨ recvbuf.length < recvlen then do
      let (data, sendidx, count) ← spiFill sendbuf sendlen 3 0 sendidx 0
      let data := data ||| (BitVec.ofNat 32 count <<< 24)
      let reg := if sendidx < sendlen then SpiDataReg.txholdRega else .ioRega
      let (data, spi) := spi.transfer reg data
      let max := (recvlen - recvbuf.length) * 8
      let count := if count > max then max else count
      spiTransact sendbuf sendlen recvlen n spi sendidx (spiDrain data (count / 8) recvbuf)
    else .ok (recvbuf, spi)

/-- `spi_send_recv`.  A pass that sends no byte stores none, so that after `sendlen` passes the
loop is over or never will be. -/
def spiSendRecv (spi : Spi) (sendbuf : List U8) (sendlen recvlen : ℕ) :
    Except Fault (List U8 × Spi) :=
  spiTransact sendbuf sendlen recvlen (sendlen + 1) spi 0 []

def uartThr : U8 := 0x00

def uartTxlvl : U8 := 0x08

/-- `(uart_channel << UART_CHANNEL_SHIFT) | (reg << UART_ADDR_SHIFT)`. -/
def uartHeader (uartChannel : U64) (reg : U8) : U8 :=
  ((uartChannel <<< 1) ||| (reg.setWidth 64 <<< 3)).setWidth 8

/-- The header with `UART_READ_ENABLE`. -/
def uartReadHeader (uartChannel : U64) (reg : U8) : U8 :=
  ((uartChannel <<< 1) ||| (reg.setWidth 64 <<< 3) ||| 0x80).setWidth 8

def uartReadRegister (spi : Spi) (uartChannel : U64) (reg : U8) : Except Fault (U8 × Spi) := do
  let (res, spi) ← spiSendRecv spi [uartReadHeader uartChannel reg, 0] 2 2
  match res[1]? with
  | some c => .ok (c, spi)
  | none => .error .outOfBounds

/-- The size of `temp`. -/
def uartPutsMax : ℕ := 32

/-- The free space in the FIFO, at most the size of `temp`. -/
def uartSpace (spi : Spi) (uartChannel : U64) : Except Fault (ℕ × Spi) := do
  let (level, spi) ← uartReadRegister spi uartChannel uartTxlvl
  .ok (if level.toNat > uartPutsMax then uartPutsMax else level.toNat, spi)

/-- The loop of `uart_puts`. -/
def uartPutsLoop (uartChannel : U64) (buffer : ℕ → U8) (bufferLen : ℕ) :
    ℕ → Spi → (Fin uartPutsMax → U8) → ℕ → ℕ → ℕ → Except Fault Spi
  | 0, _, _, _, _, _ => .error .endless
  | n + 1, spi, temp, tlen, bidx, tidx =>
    if tidx < tlen ∧ bidx < bufferLen then
      if h : tidx < uartPutsMax then
        uartPutsLoop uartChannel buffer bufferLen n spi
          (Function.update temp ⟨tidx, h⟩ (buffer bidx)) tlen (bidx + 1) (tidx + 1)
      else .error .outOfBounds
    else do
      let (_, spi) ← spiSendRecv spi (List.ofFn temp) tidx 0
      if bidx = bufferLen then .ok spi
      else do
        let (tlen, spi) ← uartSpace spi uartChannel
        uartPutsLoop uartChannel buffer bufferLen n spi temp tlen bidx 1

/-- `uart_puts` with `n` passes of its loop; `temp` is what the array holds before. -/
def uartPuts (n : ℕ) (spi : Spi) (uartChannel : U64) (buffer : ℕ → U8) (bufferLen : ℕ)
    (temp : Fin uartPutsMax → U8) : Except Fault Spi := do
  let temp := Function.update temp ⟨0, by decide⟩ (uartHeader uartChannel uartThr)
  let (tlen, spi) ← uartSpace spi uartChannel
  uartPutsLoop uartChannel buffer bufferLen n spi temp tlen 0 1

/-! ### What the UART is sent -/

/-- The bytes a word carries: the count of their bits in the top byte, then they. -/
def wordBytes (data : U32) : List U8 :=
  (List.range ((data.extractLsb' 24 8).toNat / 8)).map fun i => data.extractLsb' (16 - 8 * i) 8

def SpiTransfer.isLast (t : SpiTransfer) : Bool := t.reg = .ioRega

/-- The bytes of a burst. -/
def burstBytes (burst : List SpiTransfer) : List U8 := burst.flatMap fun t => wordBytes t.data

/-- The bursts in the words written, and what was begun. -/
def bursts (log : List SpiTransfer) : List (List SpiTransfer) × List SpiTransfer :=
  frames SpiTransfer.isLast [] log

/-! ### Words -/

/-- `data` has these bytes, left-aligned in its low 24 bits, and nothing else. -/
structure Packed (data : U32) (bytes : List U8) : Prop where
  length : bytes.length ≤ 3
  byte : ∀ i, ∀ h : i < bytes.length, data.extractLsb' (16 - 8 * i) 8 = bytes[i]
  rest : ∀ i, bytes.length ≤ i → i < 3 → data.extractLsb' (16 - 8 * i) 8 = 0#8
  top : data.extractLsb' 24 8 = 0#8

namespace Packed

variable {data : U32} {bytes : List U8}

theorem nil : Packed 0 [] := ⟨by simp, by simp, by simp, by decide⟩

/-- One pass of the loop that fills a word. -/
theorem snoc (h : Packed data bytes) (hlen : bytes.length < 3) (c : U8) :
    Packed (data ||| (c.setWidth 32 <<< (16 - 8 * bytes.length))) (bytes ++ [c]) where
  length := by
    rw [List.length_append]
    exact hlen
  byte := by
    intro i hi
    rw [BitVec.extractLsb'_or]
    by_cases hlast : i < bytes.length
    · rw [h.byte i hlast, extractLsb'_shiftLeft_of_disjoint c (by omega), BitVec.or_zero,
        List.getElem_append_left hlast]
    · have hi' : i = bytes.length := by
        rw [List.length_append, List.length_singleton] at hi
        omega
      subst hi'
      rw [h.rest _ (Nat.le_refl _) hlen, extractLsb'_shiftLeft_self c (by omega), BitVec.zero_or,
        List.getElem_concat_length rfl]
  rest := by
    intro i hi hi3
    rw [List.length_append, List.length_singleton] at hi
    rw [BitVec.extractLsb'_or, h.rest i (by omega) hi3,
      extractLsb'_shiftLeft_of_disjoint c (by omega), BitVec.or_zero]
  top := by
    rw [BitVec.extractLsb'_or, h.top, extractLsb'_shiftLeft_of_disjoint c (by omega),
      BitVec.or_zero]

/-- With its count in the top byte, the word carries these bytes. -/
theorem wordBytes_eq (h : Packed data bytes) :
    wordBytes (data ||| (BitVec.ofNat 32 (8 * bytes.length) <<< 24)) = bytes := by
  have hlen := h.length
  have hcount : BitVec.ofNat 32 (8 * bytes.length) =
      (BitVec.ofNat 8 (8 * bytes.length)).setWidth 32 := by
    apply BitVec.eq_of_toNat_eq
    rw [BitVec.toNat_setWidth, BitVec.toNat_ofNat, BitVec.toNat_ofNat,
      Nat.mod_eq_of_lt (show 8 * bytes.length < 2 ^ 8 by omega)]
  have htop : (data ||| (BitVec.ofNat 32 (8 * bytes.length) <<< 24)).extractLsb' 24 8 =
      BitVec.ofNat 8 (8 * bytes.length) := by
    rw [BitVec.extractLsb'_or, h.top, hcount, extractLsb'_shiftLeft_self _ (by omega),
      BitVec.zero_or]
  have hnum : (BitVec.ofNat 8 (8 * bytes.length)).toNat / 8 = bytes.length := by
    rw [BitVec.toNat_ofNat, Nat.mod_eq_of_lt (by omega), Nat.mul_div_cancel_left _ (by omega)]
  rw [wordBytes, htop, hnum]
  apply List.ext_getElem
  · simp
  · intro i _ hi
    rw [List.getElem_map, List.getElem_range, BitVec.extractLsb'_or, h.byte i hi, hcount,
      extractLsb'_shiftLeft_of_disjoint _ (by omega), BitVec.or_zero]

end Packed

/-- Transfers that were added to the log. -/
def Spi.push (spi : Spi) (burst : List SpiTransfer) : Spi := { spi with log := spi.log ++ burst }

@[simp] theorem Spi.push_nil (spi : Spi) : spi.push [] = spi := by simp [Spi.push]

@[simp] theorem Spi.push_push (spi : Spi) (burst burst' : List SpiTransfer) :
    (spi.push burst).push burst' = spi.push (burst ++ burst') := by
  simp [Spi.push]

section Bursts

variable {sendbuf recvbuf : List U8} {sendlen recvlen sendidx n : ℕ} {data : U32}

/-- The first inner loop packs the next bytes, as many as there is room for. -/
theorem spiFill_eq (sendidx : ℕ) {bytes : List U8} (hbuf : sendlen ≤ sendbuf.length)
    (h : Packed data bytes) (hn : bytes.length + n = 3) :
    ∃ data', Packed data' (bytes ++ ((sendbuf.take sendlen).drop sendidx).take n) ∧
      spiFill sendbuf sendlen n data sendidx (8 * bytes.length) =
        .ok (data', sendidx + min n (sendlen - sendidx),
          8 * (bytes.length + min n (sendlen - sendidx))) := by
  induction n generalizing data bytes sendidx with
  | zero => exact ⟨data, by simpa using h, by simp [spiFill]⟩
  | succ n ih =>
    by_cases hidx : sendidx < sendlen
    · have hlt : sendidx < sendbuf.length := by omega
      have hdrop : (sendbuf.take sendlen).drop sendidx =
          sendbuf[sendidx] :: (sendbuf.take sendlen).drop (sendidx + 1) := by
        rw [List.drop_eq_getElem_cons (by rw [List.length_take]; omega), List.getElem_take]
      have hn' : (bytes ++ [sendbuf[sendidx]]).length + n = 3 := by
        rw [List.length_append, List.length_singleton]
        omega
      obtain ⟨data', hpacked, hfill⟩ := ih (sendidx + 1)
        (h.snoc (by omega) sendbuf[sendidx]) hn'
      refine ⟨data', ?_, ?_⟩
      · rw [hdrop, List.take_succ_cons]
        simpa using hpacked
      · rw [spiFill, if_pos ⟨hidx, by omega⟩, List.getElem?_eq_getElem hlt]
        rw [List.length_append, List.length_singleton, Nat.mul_add] at hfill
        apply hfill.trans
        have hmin : min (n + 1) (sendlen - sendidx) = 1 + min n (sendlen - (sendidx + 1)) := by
          omega
        rw [hmin]
        simp only [Nat.add_assoc]
    · have hnil : (sendbuf.take sendlen).drop sendidx = [] := by
        rw [List.drop_eq_nil_iff, List.length_take]
        omega
      have hzero : sendlen - sendidx = 0 := by omega
      refine ⟨data, by simpa [hnil] using h, ?_⟩
      rw [spiFill, if_neg fun hc => hidx hc.1, hzero]
      simp

theorem length_spiDrain : (spiDrain data n recvbuf).length = recvbuf.length + n := by
  induction n generalizing recvbuf with
  | zero => rfl
  | succ n ih =>
    rw [spiDrain, ih, List.length_append, List.length_singleton]
    omega

/-- The clamp on `count` keeps `recvidx` at what was sent, up to `recvlen`. -/
theorem clamp_eq (sent room : ℕ) :
    (if 8 * sent > room * 8 then room * 8 else 8 * sent) / 8 = min sent room := by
  split <;> omega

/-- The outer loop sends the bytes that are left in one burst. -/
theorem spiTransact_eq (spi : Spi) (hbuf : sendlen ≤ sendbuf.length)
    (hrecv : recvlen ≤ sendlen) (hidx : sendidx ≤ sendlen)
    (hstored : recvbuf.length = min recvlen sendidx) (hn : sendlen - sendidx < n) :
    ∃ recvbuf' burst,
      spiTransact sendbuf sendlen recvlen n spi sendidx recvbuf =
        .ok (recvbuf', spi.push burst) ∧
      burstBytes burst = (sendbuf.take sendlen).drop sendidx ∧
      (sendidx < sendlen → IsFrame SpiTransfer.isLast burst) ∧
      (sendidx = sendlen → burst = []) := by
  induction n generalizing spi sendidx recvbuf with
  | zero => omega
  | succ n ih =>
    by_cases hmore : sendidx < sendlen
    · let sent := min 3 (sendlen - sendidx)
      obtain ⟨data, hpacked, hfill⟩ := spiFill_eq sendidx hbuf .nil
        (show ([] : List U8).length + 3 = 3 from rfl)
      have hlen : (((sendbuf.take sendlen).drop sendidx).take 3).length = sent := by
        rw [List.length_take, List.length_drop, List.length_take]
        omega
      rw [List.nil_append] at hpacked
      have hword := hpacked.wordBytes_eq
      rw [hlen] at hword
      simp only [List.length_nil, Nat.mul_zero, Nat.zero_add] at hfill
      let reg := if sendidx + sent < sendlen then SpiDataReg.txholdRega else .ioRega
      let t : SpiTransfer := ⟨reg, data ||| (BitVec.ofNat 32 (8 * sent) <<< 24),
        spi.answers spi.log.length⟩
      let stored := spiDrain t.answer (min sent (recvlen - recvbuf.length)) recvbuf
      have hstored' : stored.length = min recvlen (sendidx + sent) := by
        rw [length_spiDrain]
        omega
      obtain ⟨recvbuf', burst, hrest, hbytes, hframe, hdone⟩ :=
        ih (spi.push [t]) (by omega) hstored' (by omega)
      refine ⟨recvbuf', t :: burst, ?_, ?_, ?_, by omega⟩
      · rw [spiTransact, if_pos (.inl hmore), hfill]
        show spiTransact sendbuf sendlen recvlen n (spi.push [t]) (sendidx + sent)
          (spiDrain t.answer (_ / 8) recvbuf) = _
        rw [clamp_eq, hrest, Spi.push_push]
        rfl
      · show wordBytes t.data ++ burstBytes burst = _
        have htake : ((sendbuf.take sendlen).drop sendidx).take 3 =
            ((sendbuf.take sendlen).drop sendidx).take sent := by
          rw [List.take_eq_take_iff, List.length_drop, List.length_take]
          omega
        rw [hbytes, hword, ← List.drop_drop, htake, List.take_append_drop]
      · intro _
        by_cases hlast : sendidx + sent < sendlen
        · have hreg : reg = .txholdRega := if_pos hlast
          exact .cons (by simp [SpiTransfer.isLast, t, hreg]) (hframe hlast)
        · have hreg : reg = .ioRega := if_neg hlast
          rw [hdone (by omega)]
          exact .single (by simp [SpiTransfer.isLast, t, hreg])
    · have hrecvd : ¬recvbuf.length < recvlen := by omega
      refine ⟨recvbuf, [], ?_, ?_, fun h => absurd h hmore, fun _ => rfl⟩
      · rw [spiTransact, if_neg (not_or.mpr ⟨hmore, hrecvd⟩), Spi.push_nil]
      · rw [List.drop_eq_nil_of_le (by rw [List.length_take]; omega)]
        rfl

/-- **`spi_send_recv`** returns and sends its bytes in one burst. -/
theorem spiSendRecv_eq (spi : Spi) (hbuf : sendlen ≤ sendbuf.length) (hrecv : recvlen ≤ sendlen)
    (hpos : 0 < sendlen) :
    ∃ recvbuf burst, spiSendRecv spi sendbuf sendlen recvlen = .ok (recvbuf, spi.push burst) ∧
      IsFrame SpiTransfer.isLast burst ∧ burstBytes burst = sendbuf.take sendlen := by
  obtain ⟨recvbuf, burst, hsent, hbytes, hframe, -⟩ :=
    spiTransact_eq spi hbuf hrecv (Nat.zero_le _)
      (show ([] : List U8).length = min recvlen 0 by simp)
      (show sendlen - 0 < sendlen + 1 by omega)
  exact ⟨recvbuf, burst, hsent, hframe hpos, hbytes⟩

end Bursts

/-- A burst that reads `reg`, and the value read: the low byte of the answer. -/
structure IsReading (uartChannel : U64) (reg : U8) (request : List SpiTransfer) (value : U8) :
    Prop where
  frame : IsFrame SpiTransfer.isLast request
  bytes : burstBytes request = [uartReadHeader uartChannel reg, 0]
  value : request.getLast?.map (fun t => t.answer.setWidth 8) = some value

theorem uartReadRegister_eq (spi : Spi) (uartChannel : U64) (reg : U8) :
    ∃ request, uartReadRegister spi uartChannel reg =
        .ok ((spi.answers spi.log.length).setWidth 8, spi.push request) ∧
      IsReading uartChannel reg request ((spi.answers spi.log.length).setWidth 8) := by
  -- two bytes fit into one word, and `res[1]` is the last byte of what it is answered
  let answer := spi.answers spi.log.length
  obtain ⟨data, hsent⟩ : ∃ data, spiSendRecv spi [uartReadHeader uartChannel reg, 0] 2 2 =
      .ok ([(answer >>> 8).setWidth 8, (answer >>> 0).setWidth 8],
        spi.push [⟨.ioRega, data, answer⟩]) := ⟨_, rfl⟩
  obtain ⟨recvbuf, burst, hsent', hframe, hbytes⟩ := spiSendRecv_eq spi
    (show 2 ≤ [uartReadHeader uartChannel reg, 0].length from Nat.le_refl 2) (Nat.le_refl 2)
    (by omega)
  have hburst : burst = [⟨.ioRega, data, answer⟩] := by
    rw [hsent] at hsent'
    simpa [Spi.push] using (congrArg Spi.log (Prod.ext_iff.mp (Except.ok.inj hsent')).2).symm
  refine ⟨burst, ?_, hframe, hbytes, ?_⟩
  · rw [uartReadRegister, hsent, hburst]
    rfl
  · rw [hburst]
    rfl

/-- The free space that the UART reports if it is asked next. -/
def Spi.txlvl (spi : Spi) : U8 := (spi.answers spi.log.length).setWidth 8

theorem uartSpace_eq (spi : Spi) (uartChannel : U64) :
    ∃ request,
      uartSpace spi uartChannel = .ok (min spi.txlvl.toNat uartPutsMax, spi.push request) ∧
      IsReading uartChannel uartTxlvl request spi.txlvl := by
  obtain ⟨request, hread, hreading⟩ := uartReadRegister_eq spi uartChannel uartTxlvl
  let txlvl := spi.txlvl
  have hmin : (if txlvl.toNat > uartPutsMax then uartPutsMax else txlvl.toNat) =
      min txlvl.toNat uartPutsMax := by
    split <;> omega
  refine ⟨request, ?_, hreading⟩
  rw [uartSpace, hread]
  show Except.ok (_, spi.push request) = _
  rw [← hmin]
  rfl

/-! ### Bursts of a text -/

/-- A reading of the free space, and the burst that is sent after it: the header of the channel
and as many bytes as fit at most. -/
structure Round (uartChannel : U64) where
  txlvl : U8
  request : List SpiTransfer
  burst : List SpiTransfer
  payload : List U8
  reading : IsReading uartChannel uartTxlvl request txlvl
  frame : IsFrame SpiTransfer.isLast burst
  bytes : burstBytes burst = uartHeader uartChannel uartThr :: payload
  fits : payload.length ≤ txlvl.toNat

namespace Round

variable {uartChannel : U64}

def transfers (r : Round uartChannel) : List SpiTransfer := r.request ++ r.burst

/-- The bursts of rounds are told apart. -/
theorem bursts_transfers (rounds : List (Round uartChannel)) :
    bursts (rounds.flatMap transfers) = (rounds.flatMap fun r => [r.request, r.burst], []) := by
  have hflat : rounds.flatMap transfers =
      (rounds.flatMap fun r => [r.request, r.burst]).flatten := by
    induction rounds with
    | nil => rfl
    | cons r rounds ih =>
      rw [List.flatMap_cons, List.flatMap_cons, List.flatten_append, ih]
      simp [transfers]
  rw [bursts, hflat]
  apply frames_flatten
  intro f hf
  obtain ⟨r, -, hr⟩ := List.mem_flatMap.mp hf
  rcases List.mem_pair.mp hr with rfl | rfl
  · exact r.reading.frame
  · exact r.frame

end Round

section Puts

variable {uartChannel : U64} {buffer : ℕ → U8} {bufferLen start k tlen n : ℕ}
  {temp : Fin uartPutsMax → U8}

/-- `temp` holds the header and `k` bytes of the text from `start` on. -/
def TempHolds (uartChannel : U64) (buffer : ℕ → U8) (temp : Fin uartPutsMax → U8)
    (start k : ℕ) : Prop :=
  (List.ofFn temp).take (k + 1) = uartHeader uartChannel uartThr :: bytesAt buffer start k

theorem TempHolds.restart (h : TempHolds uartChannel buffer temp start k) (start' : ℕ) :
    TempHolds uartChannel buffer temp start' 0 := by
  have hhead := congrArg (List.take 1) h
  rw [List.take_take, Nat.min_eq_left (by omega)] at hhead
  exact hhead

theorem TempHolds.snoc (h : TempHolds uartChannel buffer temp start k)
    (hk : k + 1 < uartPutsMax) :
    TempHolds uartChannel buffer (Function.update temp ⟨k + 1, hk⟩ (buffer (start + k))) start
      (k + 1) := by
  have hsame : (List.ofFn (Function.update temp ⟨k + 1, hk⟩ (buffer (start + k)))).take (k + 1) =
      (List.ofFn temp).take (k + 1) := by
    apply List.ext_getElem
    · simp
    · intro i hi _
      have hne : (⟨i, by simp at hi; omega⟩ : Fin uartPutsMax) ≠ ⟨k + 1, hk⟩ := by
        intro heq
        have hik : i = k + 1 := congrArg Fin.val heq
        simp at hi
        omega
      rw [List.getElem_take, List.getElem_take, List.getElem_ofFn, List.getElem_ofFn,
        Function.update_of_ne hne]
  have hlast : (List.ofFn (Function.update temp ⟨k + 1, hk⟩ (buffer (start + k))))[k + 1]? =
      some (buffer (start + k)) := by
    rw [List.getElem?_ofFn, dif_pos hk, Function.update_self]
  rw [TempHolds, List.take_add_one, hsame, hlast, h, bytesAt_snoc]
  rfl

/-- The last pass sends what is in `temp`. -/
theorem uartPutsLoop_last (spi : Spi) (tlen : ℕ) (n : ℕ)
    (htemp : TempHolds uartChannel buffer temp start k) (hk : k < uartPutsMax)
    (hend : start + k = bufferLen) :
    ∃ burst, IsFrame SpiTransfer.isLast burst ∧
      burstBytes burst = uartHeader uartChannel uartThr :: bytesAt buffer start k ∧
      uartPutsLoop uartChannel buffer bufferLen (n + 1) spi temp tlen (start + k) (k + 1) =
        .ok (spi.push burst) := by
  have hroom : k + 1 ≤ (List.ofFn temp).length := by
    rw [List.length_ofFn]
    exact hk
  obtain ⟨_, burst, hsend, hframe, hbytes⟩ :=
    spiSendRecv_eq spi hroom (Nat.zero_le (k + 1)) (Nat.succ_pos k)
  refine ⟨burst, hframe, hbytes.trans htemp, ?_⟩
  rw [uartPutsLoop, if_neg (by omega), hsend]
  exact if_pos hend

/-- When the space is used up before the text, a pass sends what is in `temp`, asks for the
space again and goes back to the header. -/
theorem uartPutsLoop_next (spi : Spi) (n : ℕ)
    (htemp : TempHolds uartChannel buffer temp start k) (hk : k < uartPutsMax)
    (hfull : ¬k + 1 < tlen) (hend : start + k ≠ bufferLen) :
    ∃ burst request, IsFrame SpiTransfer.isLast burst ∧
      burstBytes burst = uartHeader uartChannel uartThr :: bytesAt buffer start k ∧
      IsReading uartChannel uartTxlvl request (spi.push burst).txlvl ∧
      uartPutsLoop uartChannel buffer bufferLen (n + 1) spi temp tlen (start + k) (k + 1) =
        uartPutsLoop uartChannel buffer bufferLen n (spi.push (burst ++ request)) temp
          (min (spi.push burst).txlvl.toNat uartPutsMax) (start + k + 0) (0 + 1) := by
  have hroom : k + 1 ≤ (List.ofFn temp).length := by
    rw [List.length_ofFn]
    exact hk
  obtain ⟨_, burst, hsend, hframe, hbytes⟩ :=
    spiSendRecv_eq spi hroom (Nat.zero_le (k + 1)) (Nat.succ_pos k)
  obtain ⟨request, hspace, hreading⟩ := uartSpace_eq (spi.push burst) uartChannel
  refine ⟨burst, request, hframe, hbytes.trans htemp, hreading, ?_⟩
  rw [uartPutsLoop, if_neg fun hc => hfull hc.1, hsend]
  apply (if_neg hend).trans
  rw [hspace, ← Spi.push_push]
  rfl

/-- A burst of a text after a reading of the space. -/
def Round.ofText {txlvl : U8} {request burst : List SpiTransfer} (start m : ℕ)
    (reading : IsReading uartChannel uartTxlvl request txlvl)
    (frame : IsFrame SpiTransfer.isLast burst)
    (bytes : burstBytes burst = uartHeader uartChannel uartThr :: bytesAt buffer start m)
    (hm : m + 1 ≤ max 1 (min txlvl.toNat uartPutsMax)) : Round uartChannel where
  txlvl := txlvl
  request := request
  burst := burst
  payload := bytesAt buffer start m
  reading := reading
  frame := frame
  bytes := bytes
  fits := by
    rw [length_bytesAt]
    omega

/-- **The loop.**  It sends what is in `temp`, with more bytes behind it as the space allows,
and the rest of the text in rounds; it stays inside of `temp`. -/
theorem uartPutsLoop_spec (spi : Spi) (start k : ℕ)
    (htemp : TempHolds uartChannel buffer temp start k)
    (hmax : tlen ≤ uartPutsMax) (hk : k + 1 ≤ max 1 tlen) (hlen : start + k ≤ bufferLen) :
    uartPutsLoop uartChannel buffer bufferLen n spi temp tlen (start + k) (k + 1) ≠
        .error .outOfBounds ∧
      ∀ spi', uartPutsLoop uartChannel buffer bufferLen n spi temp tlen (start + k) (k + 1) =
          .ok spi' →
        ∃ m burst, ∃ rounds : List (Round uartChannel),
          spi' = spi.push (burst ++ rounds.flatMap Round.transfers) ∧
          IsFrame SpiTransfer.isLast burst ∧
          burstBytes burst = uartHeader uartChannel uartThr :: bytesAt buffer start m ∧
          m + 1 ≤ max 1 tlen ∧
          bytesAt buffer start m ++ rounds.flatMap Round.payload =
            bytesAt buffer start (bufferLen - start) := by
  have hpos : 0 < uartPutsMax := by decide
  induction n generalizing spi temp tlen start k with
  | zero => exact ⟨by simp [uartPutsLoop], by simp [uartPutsLoop]⟩
  | succ n ih =>
    by_cases hend : start + k = bufferLen
    · obtain ⟨burst, hframe, hbytes, hloop⟩ := uartPutsLoop_last spi tlen n htemp (by omega)
        hend
      rw [hloop]
      refine ⟨by simp, ?_⟩
      rintro _ ⟨rfl⟩
      refine ⟨k, burst, [], by simp, hframe, hbytes, hk, ?_⟩
      rw [List.flatMap_nil, List.append_nil, ← hend, Nat.add_sub_cancel_left]
    · by_cases hcopy : k + 1 < tlen
      · have hidx : k + 1 < uartPutsMax := by omega
        rw [uartPutsLoop, if_pos ⟨hcopy, by omega⟩, dif_pos hidx]
        exact ih spi start (k + 1) (htemp.snoc hidx) hmax (by omega) (by omega)
      · obtain ⟨burst, request, hframe, hbytes, hreading, hloop⟩ :=
          uartPutsLoop_next spi n htemp (by omega) hcopy hend
        obtain ⟨hbounds, hrest⟩ := ih (spi.push (burst ++ request)) (start + k) 0
          (htemp.restart _) (Nat.min_le_right _ _) (by omega) (by omega)
        rw [hloop]
        refine ⟨hbounds, ?_⟩
        intro spi' hspi'
        obtain ⟨m, burst', rounds, rfl, hframe', hbytes', hm, hpayload⟩ := hrest spi' hspi'
        refine ⟨k, burst, .ofText (start + k) m hreading hframe' hbytes' hm :: rounds, ?_, hframe,
          hbytes, hk, ?_⟩
        · simp [Round.transfers, Round.ofText]
        · rw [List.flatMap_cons]
          show bytesAt buffer start k ++ (bytesAt buffer (start + k) m ++ _) = _
          rw [hpayload, ← bytesAt_append]
          congr 1
          omega

/-- While there is always space for the header and a byte, the loop comes to its end: between
two bursts it copies a byte. -/
theorem uartPutsLoop_returns (spi : Spi) (start k : ℕ)
    (hanswers : ∀ i, 2 ≤ ((spi.answers i).setWidth 8).toNat)
    (htemp : TempHolds uartChannel buffer temp start k) (hmax : tlen ≤ uartPutsMax)
    (hk : k + 1 ≤ max 1 tlen) (hlen : start + k ≤ bufferLen)
    (hn : 2 * (bufferLen - (start + k)) + (if k + 1 < tlen then 1 else 2) ≤ n) :
    ∃ spi', uartPutsLoop uartChannel buffer bufferLen n spi temp tlen (start + k) (k + 1) =
      .ok spi' := by
  have hpos : 0 < uartPutsMax := by decide
  induction n generalizing spi temp tlen start k with
  | zero => split at hn <;> omega
  | succ n ih =>
    by_cases hend : start + k = bufferLen
    · obtain ⟨burst, -, -, hloop⟩ := uartPutsLoop_last spi tlen n htemp (by omega)
        hend
      exact ⟨_, hloop⟩
    · by_cases hcopy : k + 1 < tlen
      · have hidx : k + 1 < uartPutsMax := by omega
        rw [uartPutsLoop, if_pos ⟨hcopy, by omega⟩, dif_pos hidx]
        apply ih spi start (k + 1) hanswers (htemp.snoc hidx) hmax (by omega) (by omega)
        rw [if_pos hcopy] at hn
        split <;> omega
      · obtain ⟨burst, request, -, -, -, hloop⟩ :=
          uartPutsLoop_next spi n htemp (by omega) hcopy hend
        rw [hloop]
        have hlevel : 2 ≤ (spi.push burst).txlvl.toNat := hanswers _
        have hmin : 0 + 1 < min (spi.push burst).txlvl.toNat uartPutsMax :=
          lt_min hlevel (by decide)
        apply ih (spi.push (burst ++ request)) (start + k) 0 hanswers (htemp.restart _)
          (Nat.min_le_right _ _) (by omega) (by omega)
        rw [if_neg hcopy] at hn
        rw [if_pos hmin]
        omega

section Calls

variable (n : ℕ) (spi : Spi) (uartChannel : U64) (buffer : ℕ → U8) (bufferLen : ℕ)
  (temp : Fin uartPutsMax → U8)

/-- The first reading of the space. -/
theorem uartPuts_eq :
    ∃ request temp', IsReading uartChannel uartTxlvl request spi.txlvl ∧
      TempHolds uartChannel buffer temp' 0 0 ∧
      uartPuts n spi uartChannel buffer bufferLen temp =
        uartPutsLoop uartChannel buffer bufferLen n (spi.push request) temp'
          (min spi.txlvl.toNat uartPutsMax) (0 + 0) (0 + 1) := by
  obtain ⟨request, hspace, hreading⟩ := uartSpace_eq spi uartChannel
  refine ⟨request, Function.update temp ⟨0, by decide⟩ (uartHeader uartChannel uartThr), hreading,
    rfl, ?_⟩
  rw [uartPuts, hspace]
  rfl

/-- **`uart_puts` returns** if the UART always has space for the header and a byte. -/
theorem uart_puts_returns (hanswers : ∀ i, 2 ≤ ((spi.answers i).setWidth 8).toNat) :
    ∃ n spi', uartPuts n spi uartChannel buffer bufferLen temp = .ok spi' := by
  refine ⟨2 * bufferLen + 2, ?_⟩
  obtain ⟨request, temp', -, htemp, hputs⟩ :=
    uartPuts_eq (2 * bufferLen + 2) spi uartChannel buffer bufferLen temp
  rw [hputs]
  apply uartPutsLoop_returns (spi.push request) 0 0 hanswers htemp (Nat.min_le_right _ _)
    (by omega) (by omega)
  split <;> omega

/-- **`uart_puts`.**  Whenever it returns, the words it wrote are rounds: a reading of the free
space and a burst that begins with the header of the channel and carries no more bytes than are
free.  What the bursts carry is the text.  `temp` is never accessed out of its bounds. -/
theorem uart_puts_exact :
    uartPuts n spi uartChannel buffer bufferLen temp ≠ .error .outOfBounds ∧
      ∀ spi', uartPuts n spi uartChannel buffer bufferLen temp = .ok spi' →
        ∃ log, ∃ rounds : List (Round uartChannel), spi'.log = spi.log ++ log ∧
          bursts log = (rounds.flatMap fun r => [r.request, r.burst], []) ∧
          rounds.flatMap Round.payload = bytesAt buffer 0 bufferLen := by
  obtain ⟨request, temp', hreading, htemp, hputs⟩ :=
    uartPuts_eq n spi uartChannel buffer bufferLen temp
  obtain ⟨hbounds, hrest⟩ := uartPutsLoop_spec (spi.push request) 0 0 htemp
    (Nat.min_le_right spi.txlvl.toNat uartPutsMax) (by omega) (show 0 + 0 ≤ bufferLen by omega)
  rw [hputs]
  refine ⟨hbounds, ?_⟩
  intro spi' hspi'
  obtain ⟨m, burst, rounds, rfl, hframe, hbytes, hm, hpayload⟩ := hrest spi' hspi'
  let round : Round uartChannel := .ofText 0 m hreading hframe hbytes hm
  refine ⟨(round :: rounds).flatMap Round.transfers, round :: rounds, ?_,
    Round.bursts_transfers _, ?_⟩
  · simp [Spi.push, round, Round.transfers, Round.ofText]
  · exact hpayload

end Calls

end Puts

/-- Two bytes are written with room for one at a time. -/
theorem uart_puts_exact_two :
    ∃ spi' log, ∃ rounds : List (Round 1),
      uartPuts 6 ⟨fun _ => 2, []⟩ 1 (fun i => BitVec.ofNat 8 (65 + i)) 2 (fun _ => 0) = .ok spi' ∧
      spi'.log = [] ++ log ∧
      bursts log = (rounds.flatMap fun r => [r.request, r.burst], []) ∧
      rounds.flatMap Round.payload = bytesAt (fun i => BitVec.ofNat 8 (65 + i)) 0 2 := by
  obtain ⟨spi', hputs⟩ : ∃ spi', uartPuts 6 ⟨fun _ => 2, []⟩ 1 (fun i => BitVec.ofNat 8 (65 + i)) 2
      (fun _ => 0) = .ok spi' := ⟨_, rfl⟩
  obtain ⟨log, rounds, h⟩ := (uart_puts_exact 6 ⟨fun _ => 2, []⟩ 1
    (fun i => BitVec.ofNat 8 (65 + i)) 2 (fun _ => 0)).2 spi' hputs
  exact ⟨spi', log, rounds, hputs, h⟩

end RealtimeKernel
