import RealtimeKernel.DelayedClients
import RealtimeKernel.Lib.Words
import RealtimeKernel.NameServer
import RealtimeKernel.StrandedPlayers

/-!
# The loops of the servers, whatever they are sent

A client may send a message of any length.  `Receive` copies what fits into the server's buffer
and returns how much that was, and the server takes 0 for the end of its loop; a message that is
too short leaves the bytes behind it as they were.  The names in a message are pointers.  What
the name server reads behind them, and what it answers the rock-paper-scissors server, belongs
to the state of the machine when the message is handled, and is given with the message.
-/

namespace RealtimeKernel

open Lib

/-! ### Messages as bytes -/

/-- How a message lies in memory, from address 0. -/
structure Wire (M : Type) where
  size : ℕ
  write : M → Mem
  read : Mem → M
  read_congr : ∀ m m' : Mem, (∀ i < size, m' (BitVec.ofNat 64 i) = m (BitVec.ofNat 64 i)) →
    read m' = read m

/-- The bytes of the buffer once a message has been copied into it. -/
def receivedBytes (buffer : Mem) (bytes : List U8) (size : ℕ) : Mem :=
  fun a => ((bytes.take size)[a.toNat]?).getD (buffer a)

/-- `Receive` with the buffer `msg`: how much was copied, and what the buffer holds then. -/
def receive {M : Type} (w : Wire M) (msg : M) (bytes : List U8) : ℕ × M :=
  (min bytes.length w.size, w.read (receivedBytes (w.write msg) bytes w.size))

theorem load32_congr_zero {m m' : Mem} {size i : ℕ} (hi : i + 4 ≤ size)
    (h : ∀ i < size, m' (BitVec.ofNat 64 i) = m (BitVec.ofNat 64 i)) :
    load32 m' (BitVec.ofNat 64 i) = load32 m (BitVec.ofNat 64 i) := by
  apply load32_congr
  intro j hj
  have hoff : Addr.offset (BitVec.ofNat 64 i) j = BitVec.ofNat 64 (i + j) :=
    (BitVec.ofNat_add _ _).symm
  rw [hoff]
  exact h (i + j) (by omega)

theorem load64_congr_zero {m m' : Mem} {size i : ℕ} (hi : i + 8 ≤ size)
    (h : ∀ i < size, m' (BitVec.ofNat 64 i) = m (BitVec.ofNat 64 i)) :
    load64 m' (BitVec.ofNat 64 i) = load64 m (BitVec.ofNat 64 i) := by
  apply load64_congr
  intro c hc
  obtain ⟨j, hj, rfl⟩ := (inBlock_iff (by omega)).mp hc
  have hoff : Addr.offset (BitVec.ofNat 64 i) j = BitVec.ofNat 64 (i + j) :=
    (BitVec.ofNat_add _ _).symm
  rw [hoff]
  exact h (i + j) (by omega)

def clockServerWire : Wire ClockServerMsg where
  size := 8
  write m := store32 (store32 (fun _ => 0) 0 m.action) 4 m.ticks
  read b := ⟨load32 b 0, load32 b 4⟩
  read_congr m m' h := by
    have haction : load32 m' 0 = load32 m 0 := load32_congr_zero (i := 0) (by omega) h
    have hticks : load32 m' 4 = load32 m 4 := load32_congr_zero (i := 4) (by omega) h
    rw [haction, hticks]

/-- The name is a pointer; a `tid` is an `i32`. -/
def nameServerWire : Wire (NameServerMsg U64) where
  size := 24
  write m := store32 (store64 (store32 (fun _ => 0) 0 m.action) 8 m.name) 16
    (BitVec.ofInt 32 m.tid)
  read b := ⟨load32 b 0, load64 b 8, (load32 b 16).toInt⟩
  read_congr m m' h := by
    have haction : load32 m' 0 = load32 m 0 := load32_congr_zero (i := 0) (by omega) h
    have hname : load64 m' 8 = load64 m 8 := load64_congr_zero (i := 8) (by omega) h
    have htid : load32 m' 16 = load32 m 16 := load32_congr_zero (i := 16) (by omega) h
    rw [haction, hname, htid]

/-- The names are pointers.  The link at the end of a message that was received is never
followed, so that it is left out. -/
def rpsWire : Wire (RPSMsg U64) where
  size := 40
  write m := store32 (store64 (store64 (store32 (store32 (fun _ => 0) 0 m.action) 4 m.playAction)
    8 m.name) 16 m.opponent) 24 m.playResult
  read b := ⟨load32 b 0, load32 b 4, load64 b 8, load64 b 16, load32 b 24, none⟩
  read_congr m m' h := by
    have haction : load32 m' 0 = load32 m 0 := load32_congr_zero (i := 0) (by omega) h
    have hplay : load32 m' 4 = load32 m 4 := load32_congr_zero (i := 4) (by omega) h
    have hname : load64 m' 8 = load64 m 8 := load64_congr_zero (i := 8) (by omega) h
    have hopp : load64 m' 16 = load64 m 16 := load64_congr_zero (i := 16) (by omega) h
    have hres : load32 m' 24 = load32 m 24 := load32_congr_zero (i := 24) (by omega) h
    rw [haction, hplay, hname, hopp, hres]

/-! ### The loops -/

/-- How a server can end. -/
inductive ServerEnd
  /-- `Receive` has returned 0, and the loop is left. -/
  | left
  | fault (f : Fault)
  deriving DecidableEq, Repr

/-- One turn of a server's loop. -/
def serverTurn {σ M : Type} (w : Wire M) (buffer : σ → M) (server : Server σ ℤ M M Fault)
    (s : σ) (tid : ℤ) (bytes : List U8) : Except ServerEnd (M × σ × List (ℤ × M)) :=
  let (length, msg) := receive w (buffer s) bytes
  if length = 0 then .error .left
  else
    match server s tid msg with
    | .ok (s', replies) => .ok (msg, s', replies)
    | .error f => .error (.fault f)

/-- What a client sends the name server, with the strings in memory. -/
structure NameDelivery where
  chars : U64 → CString
  bytes : List U8

/-- What a client sends the rock-paper-scissors server, with the answers of the name server. -/
structure RpsDelivery where
  whoIs : U64 → ℤ
  bytes : List U8

def nameServerTurn : Turn (NameServer U64) ℤ NameDelivery (NameServerMsg U64)
    (NameServerMsg U64) ServerEnd :=
  fun s tid d => serverTurn nameServerWire NameServer.msg (nameServer d.chars) s tid d.bytes

def clockServerTurn : Turn ClockServer ℤ (List U8) ClockServerMsg ClockServerMsg ServerEnd :=
  fun s tid bytes => serverTurn clockServerWire ClockServer.msg clockServer s tid bytes

/-- A message with the tids its names stand for. -/
def RPSMsg.resolve (whoIs : U64 → ℤ) (m : RPSMsg U64) : RPSMsg ℤ :=
  { m with name := whoIs m.name, opponent := whoIs m.opponent }

/-- The message is recorded with the tids its names stood for when it was handled. -/
def rpsServerTurn : Turn (RPSServer U64) ℤ RpsDelivery (RPSMsg ℤ) (RPSMsg U64) ServerEnd :=
  fun s tid d =>
    (serverTurn rpsWire RPSServer.msg (rpsServer d.whoIs) s tid d.bytes).map fun r =>
      (r.1.resolve d.whoIs, r.2)

/-- The server stays in its loop and in bounds, and it answers every message once; who waits for
an answer waits for the condition of its request. -/
structure KeepsServing {σ δ μ ρ : Type} (turn : Turn σ ℤ δ μ ρ ServerEnd) (s₀ : σ)
    (C : List (Exchange ℤ μ ρ) → σ → ℤ → δ → Prop)
    (pending : List (Exchange ℤ μ ρ) → ℤ → μ → Prop) : Prop where
  handles : ∀ h s c d, Attends turn C s₀ h s → C h s c d → ∃ r, turn s c d = .ok r
  fair : ∀ h s, Attends turn C s₀ h s → Stepwise (fun p e => Patient p e ∧ Fair p e) h
  once : ∀ h s, Attends turn C s₀ h s →
    ∀ c, requests h c = answers h c + if c ∈ waiting h then 1 else 0
  waits : ∀ h s, Attends turn C s₀ h s → ∀ c m, unanswered h c = some m → pending h c m

/-- **The rule for a server**: an invariant that every turn keeps, and under which a message is
handled, replies go to clients that wait, and clients wait for their conditions. -/
theorem keepsServing {σ δ μ ρ : Type} {turn : Turn σ ℤ δ μ ρ ServerEnd} {s₀ : σ}
    {C : List (Exchange ℤ μ ρ) → σ → ℤ → δ → Prop}
    {pending : List (Exchange ℤ μ ρ) → ℤ → μ → Prop} (I : List (Exchange ℤ μ ρ) → σ → Prop)
    (h₀ : I [] s₀) (hpat : ∀ h s c d, I h s → C h s c d → c ∉ waiting h)
    (hok : ∀ h s c d, I h s → C h s c d → ∃ r, turn s c d = .ok r)
    (hstep : ∀ h s c d m s' rs, I h s → C h s c d → turn s c d = .ok (m, s', rs) →
      I (h ++ [⟨c, m, rs⟩]) s' ∧ Fair h ⟨c, m, rs⟩)
    (hwaits : ∀ h s, I h s → ∀ c m, unanswered h c = some m → pending h c m) :
    KeepsServing turn s₀ C pending := by
  have hinv : ∀ h s, Attends turn C s₀ h s →
      I h s ∧ Stepwise (fun p e => Patient p e ∧ Fair p e) h := by
    intro h s run
    induction run with
    | nil => exact ⟨h₀, stepwise_nil⟩
    | snoc _ hc hturn ih =>
      obtain ⟨hi, hfair⟩ := hstep _ _ _ _ _ _ _ ih.1 hc hturn
      exact ⟨hi, stepwise_snoc.mpr ⟨ih.2, hpat _ _ _ _ ih.1 hc, hfair⟩⟩
  constructor
  · intro h s c d run hc
    exact hok h s c d (hinv h s run).1 hc
  · intro h s run
    exact (hinv h s run).2
  · intro h s run c
    exact requests_eq (hinv h s run).2 c
  · intro h s run
    exact hwaits h s (hinv h s run).1

section Turns

variable {σ M : Type} {w : Wire M} {buffer : σ → M} {server : Server σ ℤ M M Fault} {s s' : σ}
  {tid : ℤ} {bytes : List U8} {m : M} {rs : List (ℤ × M)}

/-- A message that is not empty is handled as it was received. -/
theorem serverTurn_ok (hsize : w.size ≠ 0) (hb : bytes ≠ [])
    (hs : server s tid (receive w (buffer s) bytes).2 = .ok (s', rs)) :
    serverTurn w buffer server s tid bytes =
      .ok ((receive w (buffer s) bytes).2, s', rs) := by
  have hlen : (receive w (buffer s) bytes).1 ≠ 0 := by
    have hpos := List.length_pos_iff.mpr hb
    show min bytes.length w.size ≠ 0
    omega
  unfold serverTurn
  dsimp only
  rw [if_neg hlen, hs]

theorem serverTurn_eq_ok (h : serverTurn w buffer server s tid bytes = .ok (m, s', rs)) :
    m = (receive w (buffer s) bytes).2 ∧ server s tid m = .ok (s', rs) := by
  unfold serverTurn at h
  dsimp only at h
  split at h
  · cases h
  · cases hs : server s tid (receive w (buffer s) bytes).2 with
    | error f =>
      rw [hs] at h
      cases h
    | ok r =>
      rw [hs] at h
      cases h
      exact ⟨rfl, hs⟩

/-- An empty message ends the loop. -/
theorem serverTurn_nil : serverTurn w buffer server s tid [] = .error .left := by
  simp [serverTurn, receive]

end Turns

/-! ### The name server -/

/-- The message is not empty. -/
def NameCondition (_ : List (Exchange ℤ (NameServerMsg U64) (NameServerMsg U64)))
    (_ : NameServer U64) (_ : ℤ) (d : NameDelivery) : Prop := d.bytes ≠ []

theorem nameServer_keepsServing (data : Fin hashTableMaxSize → ℤ) (msg : NameServerMsg U64) :
    KeepsServing nameServerTurn (nameServerInit data msg) NameCondition fun _ _ _ => False := by
  have hreply : ∀ (chars : U64 → CString) (s : NameServer U64) (c : ℤ) (m : NameServerMsg U64),
      ∃ reply, (nameServerBody chars { s with msg := m } c).2 = [(c, reply)] := by
    intro chars s c m
    unfold nameServerBody
    dsimp only
    cases m.kind with
    | none => exact ⟨_, rfl⟩
    | some action => cases action <;> exact ⟨_, rfl⟩
  apply keepsServing (fun h _ => waiting h = ∅)
  · rfl
  · intro h s c d hw _
    rw [hw]
    exact Finset.notMem_empty c
  · intro h s c d _ hc
    exact ⟨_, serverTurn_ok (by decide) hc rfl⟩
  · intro h s c d m s' rs hw _ hturn
    obtain ⟨-, hs⟩ := serverTurn_eq_ok hturn
    obtain ⟨reply, hr⟩ := hreply d.chars s c m
    have hrs : rs = [(c, reply)] := by
      rw [← hr, Except.ok.inj hs]
    subst hrs
    constructor
    · rw [waiting_snoc, hw]
      simp
    · exact ⟨List.nodup_singleton _, fun x hx => Or.inl (List.mem_singleton.mp hx)⟩
  · intro h s hw c m hm
    have hin := mem_waiting_iff.mpr ⟨m, hm⟩
    rw [hw] at hin
    exact Finset.notMem_empty c hin

/-! ### The clock server -/

/-- The message is not empty, and what the server reads of it is one of its actions; there is
a chunk for the client. -/
structure ClockCondition (h : List ClockExchange) (s : ClockServer) (c : ℤ) (bytes : List U8) :
    Prop where
  length : bytes ≠ []
  manageable : Manageable h ⟨c, (receive clockServerWire s.msg bytes).2, []⟩

/-- The deadline of the client has not come. -/
def ClockPending (h : List ClockExchange) (c : ℤ) (m : ClockServerMsg) : Prop :=
  ∃ p e q d, h = p ++ e :: q ∧ e.sender = c ∧ e.message = m ∧
    deadline (nowAfter p) m = some d ∧ nowAfter h < d

/-- Every client that waits has asked to be woken. -/
def ClockWaits (h : List ClockExchange) : Prop :=
  ∀ c m, unanswered h c = some m → ∃ p e q d, h = p ++ e :: q ∧ e.sender = c ∧ e.message = m ∧
    deadline (nowAfter p) m = some d ∧ (c, d) ∈ asked h

theorem ClockWaits.step {h : List ClockExchange} {e : ClockExchange} {a a' : TickClock}
    (hw : ClockWaits h) (ha : OnSchedule h a) (ha' : OnSchedule (h ++ [e]) a')
    (hpat : Patient h e) : ClockWaits (h ++ [e]) := by
  have hsub : ∀ c d, (c, d) ∈ asked (h ++ [e]) → (c, d) ∈ asked h ∨
      (c = e.sender ∧ deadline (nowAfter h) e.message = some d) := by
    intro c d hd
    rw [asked_snoc, ask] at hd
    split at hd
    · exact Or.inl (List.mem_of_mem_filter hd)
    · split at hd
      · rename_i d' hd'
        split at hd
        · rcases List.mem_append.mp hd with hd | hd
          · exact Or.inl hd
          · obtain ⟨rfl, rfl⟩ := Prod.mk.inj (List.mem_singleton.mp hd)
            exact Or.inr ⟨rfl, hd'⟩
        · exact Or.inl hd
      · exact Or.inl hd
  intro c m hm
  have hin := mem_waiting_iff.mpr ⟨m, hm⟩
  rw [ha'.waits, List.mem_toFinset] at hin
  obtain ⟨d, hd⟩ := mem_map_fst.mp hin
  have hnot : e.sender ∉ (asked h).map Prod.fst := by
    have := hpat
    rwa [Patient, ha.waits, List.mem_toFinset] at this
  obtain ⟨-, ⟨rfl, rfl⟩ | ⟨hne, hm⟩⟩ := unanswered_snoc_cases hm
  · rcases hsub _ _ hd with hold | ⟨-, hdead⟩
    · exact absurd (mem_map_fst.mpr ⟨d, hold⟩) hnot
    · exact ⟨h, e, [], d, rfl, rfl, rfl, hdead, hd⟩
  · obtain ⟨p, f, q, d', rfl, hf, rfl, hdead, hask⟩ := hw c m hm
    have hold : (c, d) ∈ asked (p ++ f :: q) :=
      (hsub _ _ hd).resolve_right fun h => hne h.1.symm
    obtain rfl : d = d' := ha.deadline_unique hold hask
    exact ⟨p, f, q ++ [e], d, by simp, hf, rfl, hdead, hd⟩

theorem clockServer_keepsServing (msg : ClockServerMsg) :
    KeepsServing clockServerTurn (clockServerInit msg) ClockCondition ClockPending := by
  apply keepsServing (fun h s => ∃ a, s.Rep a ∧ OnSchedule h a ∧ ClockWaits h)
  · refine ⟨⟨0, []⟩, clockServerInit_rep msg, onSchedule_nil, fun c m hm => ?_⟩
    cases hm
  · exact fun _ _ _ _ _ hc => hc.manageable.patient
  · rintro h s c d ⟨a, hrep, ha, -⟩ hc
    obtain ⟨s', hok, -⟩ := hrep.step c (receive clockServerWire s.msg d).2
      (ha.room hc.manageable hrep.length_le)
    exact ⟨_, serverTurn_ok (by decide) hc.length hok⟩
  · rintro h s c d m s' rs ⟨a, hrep, ha, hw⟩ hc hturn
    obtain ⟨rfl, hs⟩ := serverTurn_eq_ok hturn
    let m := (receive clockServerWire s.msg d).2
    have hman : Manageable h ⟨c, m, rs⟩ :=
      ⟨hc.manageable.action, hc.manageable.patient, hc.manageable.room⟩
    obtain ⟨s'', hok, hrep'⟩ := hrep.step c m (ha.room hman hrep.length_le)
    obtain ⟨rfl, rfl⟩ := Prod.mk.inj (Except.ok.inj (hok.symm.trans hs))
    have ha' := ha.step hman rfl
    exact ⟨⟨_, hrep', ha', hw.step ha ha' hman.patient⟩, ha.fair hman (ha.answered rfl)⟩
  · rintro h s ⟨a, -, ha, hw⟩ c m hm
    obtain ⟨p, e, q, d, hh, hsend, hmsg, hdead, hask⟩ := hw c m hm
    exact ⟨p, e, q, d, hh, hsend, hmsg, hdead, ha.future _ hask⟩

/-! ### The rock-paper-scissors server -/

abbrev ResolvedExchange := Exchange ℤ (RPSMsg ℤ) (RPSMsg U64)

/-- The client has an unanswered message of the kind. -/
def WaitsWith (h : List ResolvedExchange) (c : ℤ) (k : RPSAction) : Prop :=
  ∃ m, unanswered h c = some m ∧ m.kind = some k

/-- A tid that indexes `play_actions`. -/
def InTable (c : ℤ) : Prop := ∃ i : Fin 64, c = i.val

instance (c : ℤ) : Decidable (InTable c) := inferInstanceAs (Decidable (∃ i : Fin 64, c = i.val))

/-- The client is known by its name, and so is the one in the queue, which waits. -/
structure PairCondition (h : List ResolvedExchange) (c : ℤ) (whoIs : U64 → ℤ) (m : RPSMsg ℤ)
    (first : RPSMsg U64) : Prop where
  name : m.name = c
  queued : WaitsWith h (whoIs first.name) .signup

/-- The opponent of a `PLAY` is another client; it has a move recorded just when it has an
unanswered `PLAY`, and then the moves can be compared. -/
structure PlayCondition (h : List ResolvedExchange) (table : Fin 64 → U32) (c : ℤ)
    (m : RPSMsg ℤ) (j : Fin 64) : Prop where
  name : m.name = c
  opponent : m.opponent = j.val
  other : (j.val : ℤ) ≠ c
  recorded : WaitsWith h j.val .play ↔
    table j ≠ RPSPlayAction.absent.code ∧ table j ≠ RPSPlayAction.unknown.code
  scored : WaitsWith h j.val .play → ∃ r, rpsResults m.playAction (table j) = some r

/-- The message `m` that the server reads is one of its actions, from a client that does not wait;
its tids are in the table, and a pair or a round can be answered. -/
structure RpsMessage (h : List ResolvedExchange) (s : RPSServer U64) (c : ℤ) (whoIs : U64 → ℤ)
    (m : RPSMsg ℤ) : Prop where
  patient : c ∉ waiting h
  action : ∃ k, m.kind = some k
  signup : m.kind = some .signup → InTable m.name
  pair : m.kind = some .signup → ∀ x ∈ s.signupQueue.front,
    PairCondition h c whoIs m (s.memoryPool.chunk x)
  client : m.kind ≠ some .signup → InTable c
  play : m.kind = some .play → ∃ j, PlayCondition h s.playActions c m j

structure RpsCondition (h : List ResolvedExchange) (s : RPSServer U64) (c : ℤ)
    (d : RpsDelivery) : Prop where
  length : d.bytes ≠ []
  message : RpsMessage h s c d.whoIs ((receive rpsWire s.msg d.bytes).2.resolve d.whoIs)

/-- Nobody has signed up since, or played against the client. -/
def RpsPending (h : List ResolvedExchange) (c : ℤ) (m : RPSMsg ℤ) : Prop :=
  ∃ p e q, h = p ++ e :: q ∧ e.sender = c ∧ e.message = m ∧
    ((m.kind = some .signup ∧ ∀ f ∈ q, f.message.kind ≠ some .signup) ∨
      (m.kind = some .play ∧ ∀ f ∈ q, f.message.kind = some .play → f.message.opponent ≠ c))

/-- One client at most waits with a `SIGNUP`, and only while there is one in the queue. -/
structure RpsWaits (h : List ResolvedExchange) (a : Lobby U64) : Prop where
  pending : ∀ c m, unanswered h c = some m → RpsPending h c m
  single : ∀ c c', WaitsWith h c .signup → WaitsWith h c' .signup → c = c'
  queued : a.waits = none → ∀ c, ¬ WaitsWith h c .signup

section Rps

variable {h : List ResolvedExchange} {a a' : Lobby U64} {c : ℤ} {m : RPSMsg U64}
  {whoIs : U64 → ℤ} {rs : RPSReplies U64} {i j : Fin 64} {s : RPSServer U64}

theorem map_fst_answers {answers : List (RPSAnswer U64)} (hans : rs.map rpsAnswer = answers) :
    rs.map Prod.fst = answers.map RPSAnswer.tid := by
  rw [← hans, List.map_map]
  rfl

theorem not_waitsWith {k : RPSAction} (hpat : c ∉ waiting h) : ¬ WaitsWith h c k :=
  fun ⟨m, hm, _⟩ => hpat (mem_waiting_iff.mpr ⟨m, hm⟩)

/-- Who waits with a message goes on waiting with it, unless it is answered. -/
theorem RpsPending.snoc {e : ResolvedExchange} {m : RPSMsg ℤ} (hp : RpsPending h c m)
    (hsignup : m.kind = some .signup → e.message.kind ≠ some .signup)
    (hplay : m.kind = some .play → e.message.kind = some .play → e.message.opponent ≠ c) :
    RpsPending (h ++ [e]) c m := by
  obtain ⟨p, f, q, rfl, hf, hm, hq⟩ := hp
  refine ⟨p, f, q ++ [e], by simp, hf, hm, ?_⟩
  rcases hq with ⟨hk, hq⟩ | ⟨hk, hq⟩
  · refine Or.inl ⟨hk, fun g hg => ?_⟩
    rcases List.mem_append.mp hg with hg | hg
    · exact hq g hg
    · obtain rfl := List.mem_singleton.mp hg
      exact hsignup hk
  · refine Or.inr ⟨hk, fun g hg => ?_⟩
    rcases List.mem_append.mp hg with hg | hg
    · exact hq g hg
    · obtain rfl := List.mem_singleton.mp hg
      exact hplay hk

/-- The first of a pair waits. -/
theorem RpsWaits.signup_first (hw : RpsWaits h a) (hnone : a.waits = none)
    (hk : m.kind = some .signup) :
    RpsWaits (h ++ [⟨c, m.resolve whoIs, []⟩]) (a.signup whoIs m i).1 ∧
      Fair h ⟨c, m.resolve whoIs, []⟩ := by
  have hk' : (m.resolve whoIs).kind = some .signup := hk
  have honly : ∀ x, WaitsWith (h ++ [⟨c, m.resolve whoIs, []⟩]) x .signup → x = c := by
    rintro x ⟨m', hm', hkm⟩
    obtain ⟨-, ⟨rfl, -⟩ | ⟨-, hm'⟩⟩ := unanswered_snoc_cases hm'
    · rfl
    · exact absurd ⟨m', hm', hkm⟩ (hw.queued hnone x)
  refine ⟨⟨?_, ?_, ?_⟩, ⟨List.nodup_nil, fun x hx => by cases hx⟩⟩
  · intro x m' hm'
    obtain ⟨-, ⟨rfl, rfl⟩ | ⟨-, hm'⟩⟩ := unanswered_snoc_cases hm'
    · exact ⟨h, _, [], rfl, rfl, rfl, Or.inl ⟨hk', fun f hf => by cases hf⟩⟩
    · apply (hw.pending x m' hm').snoc
      · intro hkm
        exact absurd ⟨m', hm', hkm⟩ (hw.queued hnone x)
      · intro _ hk''
        rw [hk'] at hk''
        cases hk''
  · intro x x' hx hx'
    rw [honly x hx, honly x' hx']
  · intro hnone'
    rw [Lobby.signup, hnone] at hnone'
    cases hnone'

/-- The second of a pair and the first are answered. -/
theorem RpsWaits.signup_second (hw : RpsWaits h a) {m₁ : RPSMsg U64} (hsome : a.waits = some m₁)
    (hk : m.kind = some .signup) (hpat : c ∉ waiting h)
    (hpair : PairCondition h c whoIs (m.resolve whoIs) m₁)
    (hans : rs.map rpsAnswer = (a.signup whoIs m i).2) :
    RpsWaits (h ++ [⟨c, m.resolve whoIs, rs⟩]) (a.signup whoIs m i).1 ∧
      Fair h ⟨c, m.resolve whoIs, rs⟩ := by
  have hk' : (m.resolve whoIs).kind = some .signup := hk
  have hname : whoIs m.name = c := hpair.name
  have hqueued := hpair.queued
  have hfst : rs.map Prod.fst = [whoIs m₁.name, c] := by
    rw [map_fst_answers hans, Lobby.signup, hsome]
    show [whoIs m₁.name, whoIs m.name] = _
    rw [hname]
  have hne : whoIs m₁.name ≠ c := by
    intro heq
    rw [heq] at hqueued
    exact not_waitsWith hpat hqueued
  -- nobody waits with a signup any more
  have hnone : ∀ x, ¬ WaitsWith (h ++ [⟨c, m.resolve whoIs, rs⟩]) x .signup := by
    rintro x ⟨m', hm', hkm⟩
    obtain ⟨hr, ⟨rfl, -⟩ | ⟨-, hm'⟩⟩ := unanswered_snoc_cases hm'
    · rw [hfst] at hr
      simp at hr
    · rw [hfst, hw.single x (whoIs m₁.name) ⟨m', hm', hkm⟩ hqueued] at hr
      simp at hr
  refine ⟨⟨?_, ?_, ?_⟩, ⟨?_, ?_⟩⟩
  · intro x m' hm'
    have hm'' := hm'
    obtain ⟨hr, ⟨rfl, -⟩ | ⟨-, hm'⟩⟩ := unanswered_snoc_cases hm'
    · rw [hfst] at hr
      simp at hr
    · apply (hw.pending x m' hm').snoc
      · intro hkm
        exact absurd ⟨m', hm'', hkm⟩ (hnone x)
      · intro _ hk''
        rw [hk'] at hk''
        cases hk''
  · intro x x' hx _
    exact absurd hx (hnone x)
  · exact fun _ => hnone
  · show (rs.map Prod.fst).Nodup
    rw [hfst]
    simpa using hne
  · intro x hx
    change x ∈ rs.map Prod.fst at hx
    rw [hfst] at hx
    rcases List.mem_cons.mp hx with rfl | hx
    · obtain ⟨m', hm', -⟩ := hqueued
      exact Or.inr (mem_waiting_iff.mpr ⟨m', hm'⟩)
    · exact Or.inl (List.mem_singleton.mp hx)

/-- What a `PLAY` has to do: it answers clients that wait, and its opponent if that has played. -/
theorem RpsWaits.play_of (hw : RpsWaits h a) (hk : m.kind = some .play)
    (hopp : whoIs m.opponent = j.val) (hwaits : a'.waits = a.waits)
    (hfair : Fair h ⟨c, m.resolve whoIs, rs⟩)
    (hanswered : WaitsWith h j.val .play → (j.val : ℤ) ∈ rs.map Prod.fst) :
    RpsWaits (h ++ [⟨c, m.resolve whoIs, rs⟩]) a' ∧ Fair h ⟨c, m.resolve whoIs, rs⟩ := by
  have hk' : (m.resolve whoIs).kind = some .play := hk
  -- the clients that wait with a signup are those of before
  have hsignup : ∀ x, WaitsWith (h ++ [⟨c, m.resolve whoIs, rs⟩]) x .signup →
      WaitsWith h x .signup := by
    rintro x ⟨m', hm', hkm⟩
    obtain ⟨-, ⟨-, rfl⟩ | ⟨-, hm'⟩⟩ := unanswered_snoc_cases hm'
    · rw [hk'] at hkm
      cases hkm
    · exact ⟨m', hm', hkm⟩
  refine ⟨⟨?_, ?_, ?_⟩, hfair⟩
  · intro x m' hm'
    obtain ⟨hr, ⟨rfl, rfl⟩ | ⟨-, hm'⟩⟩ := unanswered_snoc_cases hm'
    · exact ⟨h, _, [], rfl, rfl, rfl, Or.inr ⟨hk', fun f hf => by cases hf⟩⟩
    · apply (hw.pending x m' hm').snoc
      · intro _ hk''
        rw [hk'] at hk''
        cases hk''
      · intro hkm _ heq
        have hxj : x = j.val := heq.symm.trans hopp
        subst hxj
        exact hr (hanswered ⟨m', hm', hkm⟩)
  · intro x x' hx hx'
    exact hw.single x x' (hsignup x hx) (hsignup x' hx')
  · intro hnone x hx
    exact hw.queued (hwaits ▸ hnone) x (hsignup x hx)

/-- A move is refused, waits, or is scored. -/
theorem RpsWaits.play (hw : RpsWaits h a) (hk : m.kind = some .play) (hc : c = i.val)
    (hplay : PlayCondition h a.table c (m.resolve whoIs) j)
    (hans : rs.map rpsAnswer = (a.play m i j).2) :
    RpsWaits (h ++ [⟨c, m.resolve whoIs, rs⟩]) (a.play m i j).1 ∧
      Fair h ⟨c, m.resolve whoIs, rs⟩ := by
  have hji : j ≠ i := by
    rintro rfl
    exact hplay.other hc.symm
  have hx : Function.update a.table i m.playAction j = a.table j := Function.update_of_ne hji _ _
  have hfst := map_fst_answers hans
  by_cases habsent : a.table j = RPSPlayAction.absent.code
  · rw [Lobby.play_absent (hx.trans habsent)] at hfst ⊢
    replace hfst : rs.map Prod.fst = [c] := by rw [hc]; exact hfst
    apply hw.play_of hk hplay.opponent
    · rfl
    · constructor
      · show (rs.map Prod.fst).Nodup
        rw [hfst]
        exact List.nodup_singleton c
      · intro x hx
        change x ∈ rs.map Prod.fst at hx
        rw [hfst] at hx
        exact Or.inl (List.mem_singleton.mp hx)
    · exact fun hj => absurd habsent (hplay.recorded.mp hj).1
  · by_cases hunknown : a.table j = RPSPlayAction.unknown.code
    · rw [Lobby.play_unknown (hx.trans hunknown)] at hfst ⊢
      replace hfst : rs.map Prod.fst = [] := hfst
      apply hw.play_of hk hplay.opponent
      · rfl
      · constructor
        · show (rs.map Prod.fst).Nodup
          rw [hfst]
          exact List.nodup_nil
        · intro x hx
          change x ∈ rs.map Prod.fst at hx
          rw [hfst] at hx
          cases hx
      · exact fun hj => absurd hunknown (hplay.recorded.mp hj).2
    · have hwait := hplay.recorded.mpr ⟨habsent, hunknown⟩
      obtain ⟨r, hr⟩ := hplay.scored hwait
      obtain ⟨m', hm', -⟩ := hwait
      rw [Lobby.play_scored hx habsent hunknown hr] at hfst ⊢
      replace hfst : rs.map Prod.fst = [c, (j.val : ℤ)] := by rw [hc]; exact hfst
      apply hw.play_of hk hplay.opponent
      · rfl
      · constructor
        · show (rs.map Prod.fst).Nodup
          rw [hfst]
          simpa using hplay.other.symm
        · intro x hx
          change x ∈ rs.map Prod.fst at hx
          rw [hfst] at hx
          rcases List.mem_cons.mp hx with rfl | hx
          · exact Or.inl rfl
          · obtain rfl := List.mem_singleton.mp hx
            exact Or.inr (mem_waiting_iff.mpr ⟨m', hm'⟩)
      · intro _
        rw [hfst]
        simp

theorem RpsWaits.quit (hw : RpsWaits h a) (hk : m.kind = some .quit) (hc : c = i.val)
    (hans : rs.map rpsAnswer = (a.quit m i).2) :
    RpsWaits (h ++ [⟨c, m.resolve whoIs, rs⟩]) (a.quit m i).1 ∧
      Fair h ⟨c, m.resolve whoIs, rs⟩ := by
  have hk' : (m.resolve whoIs).kind = some .quit := hk
  have hfst : rs.map Prod.fst = [c] := by
    rw [map_fst_answers hans, hc]
    rfl
  have hold : ∀ x m', unanswered (h ++ [⟨c, m.resolve whoIs, rs⟩]) x = some m' →
      unanswered h x = some m' ∧ x ≠ c := by
    intro x m' hm'
    obtain ⟨hr, ⟨rfl, -⟩ | ⟨hne, hm'⟩⟩ := unanswered_snoc_cases hm'
    · rw [hfst] at hr
      simp at hr
    · exact ⟨hm', fun heq => hne heq.symm⟩
  have hsignup : ∀ x, WaitsWith (h ++ [⟨c, m.resolve whoIs, rs⟩]) x .signup →
      WaitsWith h x .signup :=
    fun x ⟨m', hm', hkm⟩ => ⟨m', (hold x m' hm').1, hkm⟩
  refine ⟨⟨?_, ?_, ?_⟩, ⟨?_, ?_⟩⟩
  · intro x m' hm'
    apply (hw.pending x m' (hold x m' hm').1).snoc
    · intro _ hk''
      rw [hk'] at hk''
      cases hk''
    · intro _ hk''
      rw [hk'] at hk''
      cases hk''
  · intro x x' hx hx'
    exact hw.single x x' (hsignup x hx) (hsignup x' hx')
  · intro hnone x hx
    exact hw.queued hnone x (hsignup x hx)
  · show (rs.map Prod.fst).Nodup
    rw [hfst]
    exact List.nodup_singleton c
  · intro x hx
    change x ∈ rs.map Prod.fst at hx
    rw [hfst] at hx
    exact Or.inl (List.mem_singleton.mp hx)

/-- The message has an effect on the lobby. -/
theorem RpsMessage.step (hm : RpsMessage h s c whoIs (m.resolve whoIs)) (a : Lobby U64) :
    ∃ r, a.step whoIs c m = .ok r := by
  obtain ⟨k, hk⟩ := hm.action
  cases k with
  | signup =>
    obtain ⟨i, hi⟩ := hm.signup hk
    exact ⟨_, Rps.step_signup hk hi⟩
  | play =>
    obtain ⟨i, hi⟩ := hm.client (by rw [hk]; decide)
    obtain ⟨j, hj⟩ := hm.play hk
    have hname : whoIs m.name = c := hj.name
    exact ⟨_, Rps.step_play hk (hname.trans hi) hj.opponent⟩
  | quit =>
    obtain ⟨i, hi⟩ := hm.client (by rw [hk]; decide)
    exact ⟨_, Rps.step_quit hk hi⟩

/-- **One message** of the kind the server relies on. -/
theorem RpsWaits.step {held : Option ChunkPtr} (hw : RpsWaits h a) (hrep : s.Rep held a)
    (hm : RpsMessage h s c whoIs (m.resolve whoIs))
    (hstep : a.step whoIs c m = .ok (a', rs.map rpsAnswer)) :
    RpsWaits (h ++ [⟨c, m.resolve whoIs, rs⟩]) a' ∧ Fair h ⟨c, m.resolve whoIs, rs⟩ := by
  obtain ⟨k, hk'⟩ := hm.action
  have hk : m.kind = some k := hk'
  cases k with
  | signup =>
    obtain ⟨i, hi⟩ := hm.signup hk
    rw [Rps.step_signup hk hi] at hstep
    have heq := Except.ok.inj hstep
    have ha' : (a.signup whoIs m i).1 = a' := congrArg Prod.fst heq
    have hans : (a.signup whoIs m i).2 = rs.map rpsAnswer := congrArg Prod.snd heq
    rw [← ha']
    cases hsome : a.waits with
    | none =>
      rw [Lobby.signup, hsome] at hans
      obtain rfl : rs = [] := List.map_eq_nil_iff.mp hans.symm
      exact hw.signup_first hsome hk
    | some m₁ =>
      obtain ⟨x, rfl⟩ : ∃ x, held = some x := by
        cases held with
        | none =>
          have := hrep.waits
          rw [hsome] at this
          cases this
        | some x => exact ⟨x, rfl⟩
      have hx : s.memoryPool.chunk x = m₁ := Option.some.inj (hrep.waits.trans hsome)
      have hpair := hm.pair hk x hrep.front
      rw [hx] at hpair
      exact hw.signup_second hsome hk hm.patient hpair hans.symm
  | play =>
    obtain ⟨i, hi⟩ := hm.client (by rw [hk']; decide)
    obtain ⟨j, hj⟩ := hm.play hk
    have hname : whoIs m.name = c := hj.name
    rw [Rps.step_play hk (hname.trans hi) hj.opponent] at hstep
    obtain ⟨rfl, hans⟩ := Prod.mk.inj (Except.ok.inj hstep)
    rw [hrep.table] at hj
    exact hw.play hk hi hj hans.symm
  | quit =>
    obtain ⟨i, hi⟩ := hm.client (by rw [hk']; decide)
    rw [Rps.step_quit hk hi] at hstep
    obtain ⟨rfl, hans⟩ := Prod.mk.inj (Except.ok.inj hstep)
    exact hw.quit hk hi hans.symm

/-- **Where the rock-paper-scissors server goes wrong**: after any messages it stops just at an
empty one and at one whose tids are not in the table. -/
theorem rpsServerTurn_returns_iff {held : Option ChunkPtr} (hrep : s.Rep held a)
    (d : RpsDelivery) (hm : (receive rpsWire s.msg d.bytes).2 = m) :
    (∃ r, rpsServerTurn s c d = .ok r) ↔ d.bytes ≠ [] ∧
      (m.kind = some .signup → InTable (d.whoIs m.name)) ∧
      (m.kind = some .play → InTable (d.whoIs m.name) ∧ InTable (d.whoIs m.opponent)) ∧
      (m.kind = some .quit → InTable c) := by
  have hindex : ∀ x : ℤ, InTable x ∨ ∃ f, playIndex x = .error f := by
    intro x
    cases hx : playIndex x with
    | ok i => exact Or.inl ⟨i, playIndex_eq_ok.mp hx⟩
    | error f => exact Or.inr ⟨f, rfl⟩
  have hturn : ∀ f, a.step d.whoIs c m = .error f → ¬ ∃ r, rpsServerTurn s c d = .ok r := by
    rintro f hf ⟨⟨m', s', rs⟩, hok⟩
    unfold rpsServerTurn at hok
    cases hs : serverTurn rpsWire RPSServer.msg (rpsServer d.whoIs) s c d.bytes with
    | error f' =>
      rw [hs] at hok
      cases hok
    | ok r =>
      obtain ⟨m', s', rs⟩ := r
      obtain ⟨hm', hserver⟩ := serverTurn_eq_ok hs
      rw [hm', hm, hrep.step_error hf] at hserver
      cases hserver
  constructor
  · intro hok
    refine ⟨?_, ?_, ?_, ?_⟩
    · rintro hb
      obtain ⟨r, hok⟩ := hok
      unfold rpsServerTurn at hok
      rw [hb, serverTurn_nil] at hok
      cases hok
    · intro hk
      rcases hindex (d.whoIs m.name) with hin | ⟨f, hf⟩
      · exact hin
      · refine absurd hok (hturn f ?_)
        simp only [Lobby.step, hk, hf]
        rfl
    · intro hk
      rcases hindex (d.whoIs m.name) with ⟨i, hi⟩ | ⟨f, hf⟩
      · rcases hindex (d.whoIs m.opponent) with hin | ⟨f, hf⟩
        · exact ⟨⟨i, hi⟩, hin⟩
        · refine absurd hok (hturn f ?_)
          simp only [Lobby.step, hk, hi, playIndex_natCast, hf]
          rfl
      · refine absurd hok (hturn f ?_)
        simp only [Lobby.step, hk, hf]
        rfl
    · intro hk
      rcases hindex c with hin | ⟨f, hf⟩
      · exact hin
      · refine absurd hok (hturn f ?_)
        simp only [Lobby.step, hk, hf]
        rfl
  · rintro ⟨hb, hsignup, hplay, hquit⟩
    have hstep : ∃ r, a.step d.whoIs c m = .ok r := by
      cases hk : m.kind with
      | none => exact ⟨(a, []), by rw [Lobby.step, hk]⟩
      | some action =>
        cases action with
        | signup =>
          obtain ⟨i, hi⟩ := hsignup hk
          exact ⟨_, Rps.step_signup hk hi⟩
        | play =>
          obtain ⟨⟨i, hi⟩, j, hj⟩ := hplay hk
          exact ⟨_, Rps.step_play hk hi hj⟩
        | quit =>
          obtain ⟨i, hi⟩ := hquit hk
          exact ⟨_, Rps.step_quit hk hi⟩
    obtain ⟨⟨a', answers⟩, hstep⟩ := hstep
    obtain ⟨held', s', rs, hserver, -, -⟩ := hrep.step hstep
    refine ⟨(m.resolve d.whoIs, s', rs), ?_⟩
    unfold rpsServerTurn
    rw [serverTurn_ok (by decide) hb (hm ▸ hserver), hm]
    rfl

theorem rpsServer_keepsServing (zero msg : RPSMsg U64) :
    KeepsServing rpsServerTurn (rpsServerInit zero msg) RpsCondition RpsPending := by
  have hturn : ∀ (s : RPSServer U64) c (d : RpsDelivery), d.bytes ≠ [] → ∀ s' rs,
      rpsServer d.whoIs s c (receive rpsWire s.msg d.bytes).2 = .ok (s', rs) →
      rpsServerTurn s c d =
        .ok ((receive rpsWire s.msg d.bytes).2.resolve d.whoIs, s', rs) := by
    intro s c d hb s' rs hok
    unfold rpsServerTurn
    rw [serverTurn_ok (by decide) hb hok]
    rfl
  apply keepsServing (fun h s => ∃ held a, s.Rep held a ∧ RpsWaits h a)
  · refine ⟨none, _, rpsServerInit_rep zero msg, ?_, ?_, ?_⟩
    · exact fun c m hm => by cases hm
    · rintro c c' ⟨m, hm, -⟩
      cases hm
    · rintro - c ⟨m, hm, -⟩
      cases hm
  · exact fun _ _ _ _ _ hc => hc.message.patient
  · rintro h s c d ⟨held, a, hrep, -⟩ hc
    obtain ⟨⟨a', answers⟩, hstep⟩ := hc.message.step a
    obtain ⟨-, s', rs, hok, -, -⟩ := hrep.step hstep
    exact ⟨_, hturn s c d hc.length s' rs hok⟩
  · rintro h s c d m s' rs ⟨held, a, hrep, hw⟩ hc hok
    obtain ⟨⟨a', answers⟩, hstep⟩ := hc.message.step a
    obtain ⟨held', s'', rs', hserver, hrep', hans⟩ := hrep.step hstep
    rw [hturn s c d hc.length s'' rs' hserver] at hok
    obtain ⟨rfl, hsnd⟩ := Prod.mk.inj (Except.ok.inj hok)
    obtain ⟨rfl, rfl⟩ := Prod.mk.inj hsnd
    obtain ⟨hw', hfair⟩ := hw.step hrep hc.message (hans ▸ hstep)
    exact ⟨⟨held', a', hrep', hw'⟩, hfair⟩
  · rintro h s ⟨held, a, -, hw⟩
    exact hw.pending

end Rps

/-- **The servers survive** the messages that are not empty and that they can do something with:
they return to their `Receive`, index no table out of bounds, and answer every message once;
the clients that wait have signed up first of a pair, have played first of a round, or have
asked for a time that has not come. -/
theorem servers_survive (data : Fin hashTableMaxSize → ℤ) (nameMsg : NameServerMsg U64)
    (clockMsg : ClockServerMsg) (zero rpsMsg : RPSMsg U64) :
    KeepsServing nameServerTurn (nameServerInit data nameMsg) NameCondition (fun _ _ _ => False) ∧
    KeepsServing clockServerTurn (clockServerInit clockMsg) ClockCondition ClockPending ∧
    KeepsServing rpsServerTurn (rpsServerInit zero rpsMsg) RpsCondition RpsPending :=
  ⟨nameServer_keepsServing data nameMsg, clockServer_keepsServing clockMsg,
    rpsServer_keepsServing zero rpsMsg⟩

/-- The bytes of a message. -/
def Wire.bytes {M : Type} (w : Wire M) (m : M) : List U8 :=
  (List.range w.size).map fun i => w.write m (BitVec.ofNat 64 i)

instance (h : List (Exchange ℤ (NameServerMsg U64) (NameServerMsg U64))) (s : NameServer U64)
    (c : ℤ) (d : NameDelivery) : Decidable (NameCondition h s c d) :=
  inferInstanceAs (Decidable (_ ≠ _))

instance (h : List ClockExchange) (e : ClockExchange) : Decidable (Manageable h e) :=
  decidable_of_iff (e.message.kind ≠ none ∧ Patient h e ∧
      (deadline (nowAfter h) e.message).all fun d => decide (nowAfter h < d →
        (insert e.sender (waiting h)).card ≤ memoryPoolChunks))
    (by simp only [Option.all_eq_true, decide_eq_true_eq]
        exact ⟨fun h => ⟨h.1, h.2.1, h.2.2⟩, fun h => ⟨h.action, h.patient, h.room⟩⟩)

instance (h : List ClockExchange) (s : ClockServer) (c : ℤ) (bytes : List U8) :
    Decidable (ClockCondition h s c bytes) :=
  decidable_of_iff (_ ∧ _) ⟨fun h => ⟨h.1, h.2⟩, fun h => ⟨h.length, h.manageable⟩⟩

instance (h : List ResolvedExchange) (c : ℤ) (k : RPSAction) : Decidable (WaitsWith h c k) :=
  decidable_of_iff ((unanswered h c).any fun m => decide (m.kind = some k))
    (by simp only [Option.any_eq_true, decide_eq_true_eq, WaitsWith])

instance (h : List ResolvedExchange) (c : ℤ) (whoIs : U64 → ℤ) (m : RPSMsg ℤ)
    (first : RPSMsg U64) : Decidable (PairCondition h c whoIs m first) :=
  decidable_of_iff (_ ∧ _) ⟨fun h => ⟨h.1, h.2⟩, fun h => ⟨h.name, h.queued⟩⟩

instance (h : List ResolvedExchange) (table : Fin 64 → U32) (c : ℤ) (m : RPSMsg ℤ)
    (j : Fin 64) : Decidable (PlayCondition h table c m j) :=
  decidable_of_iff (m.name = c ∧ m.opponent = j.val ∧ (j.val : ℤ) ≠ c ∧
      (WaitsWith h j.val .play ↔
        table j ≠ RPSPlayAction.absent.code ∧ table j ≠ RPSPlayAction.unknown.code) ∧
      (WaitsWith h j.val .play → (rpsResults m.playAction (table j)).isSome))
    (by simp only [Option.isSome_iff_exists]
        exact ⟨fun h => ⟨h.1, h.2.1, h.2.2.1, h.2.2.2.1, h.2.2.2.2⟩,
          fun h => ⟨h.name, h.opponent, h.other, h.recorded, h.scored⟩⟩)

instance (h : List ResolvedExchange) (s : RPSServer U64) (c : ℤ) (whoIs : U64 → ℤ)
    (m : RPSMsg ℤ) : Decidable (RpsMessage h s c whoIs m) :=
  decidable_of_iff (c ∉ waiting h ∧ m.kind.isSome ∧ (m.kind = some .signup → InTable m.name) ∧
      (m.kind = some .signup → s.signupQueue.front.all fun x =>
        decide (PairCondition h c whoIs m (s.memoryPool.chunk x))) ∧
      (m.kind ≠ some .signup → InTable c) ∧
      (m.kind = some .play → ∃ j, PlayCondition h s.playActions c m j))
    (by simp only [Option.isSome_iff_exists, Option.all_eq_true, decide_eq_true_eq]
        exact ⟨fun h => ⟨h.1, h.2.1, h.2.2.1, h.2.2.2.1, h.2.2.2.2.1, h.2.2.2.2.2⟩,
          fun h => ⟨h.patient, h.action, h.signup, h.pair, h.client, h.play⟩⟩)

instance (h : List ResolvedExchange) (s : RPSServer U64) (c : ℤ) (d : RpsDelivery) :
    Decidable (RpsCondition h s c d) :=
  decidable_of_iff (_ ∧ _) ⟨fun h => ⟨h.1, h.2⟩, fun h => ⟨h.length, h.message⟩⟩

/-- A task registers the name, and another one looks it up. -/
def lookupTurns (name : CString) : List (ℤ × NameDelivery) :=
  [(5, ⟨fun _ => name, nameServerWire.bytes ⟨0, 0x300, 0⟩⟩),
    (6, ⟨fun _ => name, nameServerWire.bytes ⟨1, 0x300, 0⟩⟩)]

/-- Names that resolve to the tids they are. -/
def rpsTurn (c : ℤ) (m : RPSMsg U64) : ℤ × RpsDelivery := (c, ⟨BitVec.toInt, rpsWire.bytes m⟩)

/-- Two clients sign up and play one round. -/
def roundTurns : List (ℤ × RpsDelivery) :=
  [rpsTurn 7 ⟨0, 0, 7, 0, 0, none⟩, rpsTurn 8 ⟨0, 0, 8, 0, 0, none⟩,
    rpsTurn 7 ⟨1, 2, 7, 8, 0, none⟩, rpsTurn 8 ⟨1, 3, 8, 7, 0, none⟩]

/-- A name is looked up, a client is delayed for two ticks and one of them comes, and two players
play a round. -/
theorem servers_survive_run :
    (∃ h s, Attends nameServerTurn NameCondition (nameServerInit (fun _ => 0) ⟨0, 0, 0⟩) h s ∧
      h.map (fun e => e.replies.map fun r => (r.1, r.2.tid)) = [[(5, 0)], [(6, 5)]] ∧
      ∀ c, requests h c = answers h c) ∧
    (∃ h s, Attends clockServerTurn ClockCondition (clockServerInit ⟨0, 0⟩) h s ∧
      h.map (fun e => e.replies.map Prod.fst) = [[], [3]] ∧ ClockPending h 7 ⟨2, 2⟩) ∧
    ∃ h s, Attends rpsServerTurn RpsCondition
        (rpsServerInit ⟨0, 0, 0, 0, 0, none⟩ ⟨0, 0, 0, 0, 0, none⟩) h s ∧
      h.map (fun e => e.replies.map fun r => (r.1, r.2.playResult)) =
        [[], [(7, 0), (8, 0)], [], [(8, 0), (7, 1)]] ∧
      ∀ c, requests h c = answers h c := by
  obtain ⟨hname, hclock, hrps⟩ := servers_survive (fun _ => 0) ⟨0, 0, 0⟩ ⟨0, 0⟩
    ⟨0, 0, 0, 0, 0, none⟩ ⟨0, 0, 0, 0, 0, none⟩
  have hanswered : ∀ {μ ρ : Type} {h : List (Exchange ℤ μ ρ)}, waiting h = ∅ →
      (∀ c, requests h c = answers h c + if c ∈ waiting h then 1 else 0) →
      ∀ c, requests h c = answers h c := by
    intro μ ρ h hnobody honce c
    rw [honce c, hnobody, if_neg (Finset.notMem_empty c)]
    rfl
  refine ⟨?_, ?_, ?_⟩
  · have hrun : (attend nameServerTurn NameCondition [] (nameServerInit (fun _ => 0) ⟨0, 0, 0⟩)
        (lookupTurns ⟨[97], by decide⟩)).any (fun r => decide (waiting r.1 = ∅ ∧
          r.1.map (fun e => e.replies.map fun r => (r.1, r.2.tid)) = [[(5, 0)], [(6, 5)]])) := by
      decide +kernel
    obtain ⟨⟨h, s⟩, ha, hh⟩ := (Option.any_eq_true _ _).mp hrun
    obtain ⟨hnobody, hreplies⟩ := of_decide_eq_true hh
    have run := Attends.nil.attend ha
    exact ⟨h, s, run, hreplies, hanswered hnobody (hname.once h s run)⟩
  · have hrun : (attend clockServerTurn ClockCondition [] (clockServerInit ⟨0, 0⟩)
        [(7, clockServerWire.bytes ⟨2, 2⟩), (3, clockServerWire.bytes ⟨0, 0⟩)]).any
          (fun r => decide (unanswered r.1 7 = some ⟨2, 2⟩ ∧
            r.1.map (fun e => e.replies.map Prod.fst) = [[], [3]])) := by
      decide +kernel
    obtain ⟨⟨h, s⟩, ha, hh⟩ := (Option.any_eq_true _ _).mp hrun
    obtain ⟨hwaits, hreplies⟩ := of_decide_eq_true hh
    have run := Attends.nil.attend ha
    exact ⟨h, s, run, hreplies, hclock.waits h s run 7 _ hwaits⟩
  · have hrun : (attend rpsServerTurn RpsCondition []
        (rpsServerInit ⟨0, 0, 0, 0, 0, none⟩ ⟨0, 0, 0, 0, 0, none⟩) roundTurns).any
          (fun r => decide (waiting r.1 = ∅ ∧
            r.1.map (fun e => e.replies.map fun r => (r.1, r.2.playResult)) =
              [[], [(7, 0), (8, 0)], [], [(8, 0), (7, 1)]])) := by
      decide +kernel
    obtain ⟨⟨h, s⟩, ha, hh⟩ := (Option.any_eq_true _ _).mp hrun
    obtain ⟨hnobody, hreplies⟩ := of_decide_eq_true hh
    have run := Attends.nil.attend ha
    exact ⟨h, s, run, hreplies, hanswered hnobody (hrps.once h s run)⟩

/-- An empty message ends the loop of every server. -/
theorem servers_left :
    nameServerTurn (nameServerInit (fun _ => 0) ⟨0, 0, 0⟩) 5
      ⟨fun _ => ⟨[97], by decide⟩, []⟩ = .error .left ∧
    clockServerTurn (clockServerInit ⟨0, 0⟩) 5 [] = .error .left ∧
    rpsServerTurn (rpsServerInit ⟨0, 0, 0, 0, 0, none⟩ ⟨0, 0, 0, 0, 0, none⟩) 5
      ⟨fun _ => 5, []⟩ = .error .left := by
  refine ⟨serverTurn_nil, serverTurn_nil, ?_⟩
  unfold rpsServerTurn
  rw [serverTurn_nil]
  rfl

end RealtimeKernel
