import RealtimeKernel.Basic
import RealtimeKernel.Lib.Servers
import RealtimeKernel.MemoryPool

/-!
# `name_server.c` and `hash_table.c`: the name server

A name is the string its pointer points to while the server handles the message; `chars` reads
it.  The table keeps no names: a name has the slot its hash gives it, the first registration
takes the slot, and a later one is dropped although `RegisterAs` returns 0.
-/

namespace RealtimeKernel

open Lib

/-! ### `hash_table.c` -/

/-- A string without its terminator. -/
structure CString where
  chars : List U8
  no_nul : 0 ∉ chars
  deriving DecidableEq

/-- `HASH_TABLE_MAX_SIZE`. -/
def hashTableMaxSize : ℕ := 64

/-- The loop of `hash_table_djb2`; a `char` is unsigned. -/
def djb2Loop (hash : U64) : List U8 → U64
  | [] => hash
  | ch :: str => djb2Loop (hash <<< 5 + hash + ch.setWidth 64) str

def hashTableDjb2 (str : CString) : U64 := djb2Loop 5381 str.chars

structure HashTable where
  size : U64
  data : Fin hashTableMaxSize → ℤ
  used : Fin hashTableMaxSize → Bool
  size_pos : 0 < size.toNat
  size_le : size.toNat ≤ hashTableMaxSize

/-- `hash_table_init`; it leaves `data` as it is. -/
def hashTableInit (data : Fin hashTableMaxSize → ℤ) : HashTable where
  size := 64
  data := data
  used := fun _ => false
  size_pos := by decide
  size_le := by decide

theorem hashTableSlot_lt (self : HashTable) (hash : U64) :
    (hash % self.size).toNat < hashTableMaxSize := by
  rw [BitVec.toNat_umod]
  exact Nat.lt_of_lt_of_le (Nat.mod_lt _ self.size_pos) self.size_le

/-- `hash_table_djb2(key) % self->size`. -/
def hashTableSlot (self : HashTable) (key : CString) : Fin hashTableMaxSize :=
  ⟨(hashTableDjb2 key % self.size).toNat, hashTableSlot_lt self _⟩

def hashTableAdd (self : HashTable) (key : CString) (value : ℤ) : Bool × HashTable :=
  let hash := hashTableSlot self key
  if self.used hash = false then
    (true, { self with
      used := Function.update self.used hash true
      data := Function.update self.data hash value })
  else (false, self)

def hashTableHas (self : HashTable) (key : CString) : Bool := self.used (hashTableSlot self key)

def hashTableGet (self : HashTable) (key : CString) : ℤ :=
  let hash := hashTableSlot self key
  if self.used hash then self.data hash else 0

/-! ### The server -/

inductive NameServerAction
  | registerAs
  | whoIs
  deriving DecidableEq, Repr

/-- The enumerator with a value, if there is one. -/
def NameServerAction.ofCode (code : U32) : Option NameServerAction :=
  match code.toNat with
  | 0 => some .registerAs
  | 1 => some .whoIs
  | _ => none

structure NameServerMsg (ν : Type) where
  action : U32
  name : ν
  tid : ℤ
  deriving DecidableEq

variable {ν : Type}

def NameServerMsg.kind (m : NameServerMsg ν) : Option NameServerAction :=
  NameServerAction.ofCode m.action

/-- The variables of `name_server`; `msg` is the buffer of its `Receive`. -/
structure NameServer (ν : Type) where
  hashTable : HashTable
  msg : NameServerMsg ν

abbrev NameReplies (ν : Type) := List (ℤ × NameServerMsg ν)

/-- The variables when `name_server` enters its loop; `data` and `msg` are not initialised. -/
def nameServerInit (data : Fin hashTableMaxSize → ℤ) (msg : NameServerMsg ν) : NameServer ν where
  hashTable := hashTableInit data
  msg := msg

/-- The body of the loop, after `Receive` has filled in `tid` and `msg`. -/
def nameServerBody (chars : ν → CString) (s : NameServer ν) (tid : ℤ) :
    NameServer ν × NameReplies ν :=
  match s.msg.kind with
  | some .registerAs =>
    ({ s with hashTable := (hashTableAdd s.hashTable (chars s.msg.name) tid).2 }, [(tid, s.msg)])
  | some .whoIs =>
    let found := hashTableHas s.hashTable (chars s.msg.name)
    let msg := { s.msg with
      tid := if found then hashTableGet s.hashTable (chars s.msg.name) else -1 }
    ({ s with msg := msg }, [(tid, msg)])
  | none => (s, [(tid, s.msg)])

/-- One iteration on a message of full size. -/
def nameServer (chars : ν → CString) :
    Server (NameServer ν) ℤ (NameServerMsg ν) (NameServerMsg ν) Fault :=
  fun s tid msg => .ok (nameServerBody chars { s with msg := msg } tid)

/-- `sizeof(NameServerMsg)`. -/
def nameServerMsgSize : ℤ := 24

/-- `RegisterAs`, once its `Send` has returned. -/
def registerAs (sent : ℤ) : ℤ := if sent < 0 then -1 else 0

/-- `WhoIs`, once its `Send` has returned and filled in `msg`. -/
def whoIs (sent : ℤ) (msg : NameServerMsg ν) : ℤ := if sent < 0 then -1 else msg.tid

/-! ### Whose slot it is -/

namespace Names

abbrev NameExchange := Exchange ℤ (NameServerMsg CString) (NameServerMsg CString)

/-- The slot of a name. -/
def slot (n : CString) : Fin hashTableMaxSize := hashTableSlot (hashTableInit fun _ => 0) n

/-- The message registers a name that has the slot. -/
def takes (k : Fin hashTableMaxSize) (e : NameExchange) : Bool :=
  decide (e.message.kind = some .registerAs ∧ slot e.message.name = k)

/-- The task that first registered a name with the slot. -/
def slotOwner (h : List NameExchange) (k : Fin hashTableMaxSize) : Option ℤ :=
  (h.find? (takes k)).map Exchange.sender

/-- A `RegisterAs` or `WhoIs` of a task. -/
structure Call (p : List NameExchange) (e : NameExchange) : Prop where
  action : ∃ k, e.message.kind = some k
  task : e.sender ≠ -1

/-- `RegisterAs` of the name by the task has been answered, and so has returned 0. -/
def Registered (h : List NameExchange) (n : CString) (t : ℤ) : Prop :=
  ∃ e ∈ h, e.message.kind = some .registerAs ∧ e.message.name = n ∧ e.sender = t ∧
    ∃ reply, e.replies = [(t, reply)] ∧ registerAs nameServerMsgSize = 0

/-- What the `WhoIs` returns. -/
def Finds (e : NameExchange) (t : ℤ) : Prop :=
  ∃ reply, e.replies = [(e.sender, reply)] ∧ whoIs nameServerMsgSize reply = t

/-- The law of a map: a `WhoIs` in the run `h`, after the calls of `p`, finds the task that has
registered the name, if there is just one in the run, and nothing if there is none. -/
structure MapLaw (h p : List NameExchange) (e : NameExchange) : Prop where
  found : ∀ t, Registered p e.message.name t →
    (∀ t', Registered h e.message.name t' → t' = t) → Finds e t
  missing : (∀ t, ¬ Registered h e.message.name t) → Finds e (-1)

/-- The first registration of a name with the slot is one of the task, or there is none. -/
structure NoCollision (h p : List NameExchange) (e : NameExchange) : Prop where
  found : ∀ t, Registered p e.message.name t →
    (∀ t', Registered h e.message.name t' → t' = t) → slotOwner p (slot e.message.name) = some t
  missing : (∀ t, ¬ Registered h e.message.name t) → slotOwner p (slot e.message.name) = none

/-- The table holds the owners of the slots. -/
structure Owners (h : List NameExchange) (s : NameServer CString) : Prop where
  size : s.hashTable.size = 64
  used : ∀ k, s.hashTable.used k = (slotOwner h k).isSome
  data : ∀ k t, slotOwner h k = some t → s.hashTable.data k = t

variable {h p : List NameExchange} {e : NameExchange} {s : NameServer CString}
  {k : Fin hashTableMaxSize} {n : CString} {t : ℤ} {c : ℤ} {m : NameServerMsg CString}

theorem slotOwner_snoc : slotOwner (h ++ [e]) k =
    (slotOwner h k).or (if takes k e then some e.sender else none) := by
  unfold slotOwner
  rw [List.find?_append]
  cases h.find? (takes k) with
  | some f => rfl
  | none =>
    show (List.find? (takes k) [e]).map Exchange.sender = _
    rw [List.find?_singleton]
    split <;> rfl

theorem Owners.slot_eq (ho : Owners h s) (n : CString) : hashTableSlot s.hashTable n = slot n := by
  unfold slot hashTableSlot hashTableInit
  simp only [ho.size]

/-- The registration changes no owner. -/
theorem slotOwner_of_not_takes (hn : takes k e = false) :
    slotOwner (h ++ [e]) k = slotOwner h k := by
  rw [slotOwner_snoc, hn]
  cases slotOwner h k <;> rfl

theorem Owners.nil (data : Fin hashTableMaxSize → ℤ) (msg : NameServerMsg CString) :
    Owners [] (nameServerInit data msg) where
  size := rfl
  used := fun _ => rfl
  data := fun _ _ hk => by cases hk

/-- `hash_table_add` gives a free slot to the task. -/
theorem Owners.add (ho : Owners h s) (hk : m.kind = some .registerAs) {rs : NameReplies CString} :
    Owners (h ++ [⟨c, m, rs⟩])
      { s with hashTable := (hashTableAdd s.hashTable m.name c).2, msg := m } := by
  have htakes : ∀ k, takes k ⟨c, m, rs⟩ = decide (slot m.name = k) := by
    intro k
    simp [takes, hk]
  have hslot := ho.slot_eq m.name
  have hused := ho.used (slot m.name)
  unfold hashTableAdd
  dsimp only
  rw [hslot]
  cases howner : slotOwner h (slot m.name) with
  | some t =>
    rw [howner] at hused
    rw [if_neg (by simp [hused])]
    have hsame : ∀ k, slotOwner (h ++ [⟨c, m, rs⟩]) k = slotOwner h k := by
      intro k
      rw [slotOwner_snoc, htakes]
      by_cases hkk : slot m.name = k
      · subst hkk
        rw [howner]
        rfl
      · simp [hkk]
    constructor
    · exact ho.size
    · intro k
      rw [hsame]
      exact ho.used k
    · intro k t hkt
      rw [hsame] at hkt
      exact ho.data k t hkt
  | none =>
    rw [howner] at hused
    have hfree : s.hashTable.used (slot m.name) = false := hused
    rw [if_pos hfree]
    have hnew : ∀ k, slotOwner (h ++ [⟨c, m, rs⟩]) k =
        if k = slot m.name then some c else slotOwner h k := by
      intro k
      rw [slotOwner_snoc, htakes]
      by_cases hkk : k = slot m.name
      · subst hkk
        simp [howner]
      · simp [hkk, Ne.symm hkk]
    constructor
    · exact ho.size
    · intro k
      rw [hnew]
      by_cases hkk : k = slot m.name
      · subst hkk
        simp
      · simp [hkk, ho.used k]
    · intro k t hkt
      rw [hnew] at hkt
      by_cases hkk : k = slot m.name
      · subst hkk
        rw [if_pos rfl] at hkt
        obtain rfl := Option.some.inj hkt
        exact Function.update_self _ _ _
      · rw [if_neg hkk] at hkt
        show Function.update s.hashTable.data (slot m.name) c k = t
        rw [Function.update_of_ne hkk]
        exact ho.data k t hkt

/-- What a message is answered. -/
def answer (h : List NameExchange) (m : NameServerMsg CString) : NameServerMsg CString :=
  if m.kind = some .whoIs then { m with tid := (slotOwner h (slot m.name)).getD (-1) } else m

/-- **One message**: the table follows the registrations, and the sender gets the answer. -/
theorem Owners.step (ho : Owners h s) {s' : NameServer CString} {rs : NameReplies CString}
    (hok : nameServer id s c m = .ok (s', rs)) :
    Owners (h ++ [⟨c, m, rs⟩]) s' ∧ rs = [(c, answer h m)] := by
  have hbody := Except.ok.inj hok
  unfold nameServerBody at hbody
  dsimp only at hbody
  cases hk : m.kind with
  | none =>
    rw [hk] at hbody
    obtain ⟨rfl, rfl⟩ := Prod.mk.inj hbody
    refine ⟨⟨ho.size, fun k => ?_, fun k t hkt => ?_⟩, by simp [answer, hk]⟩
    · rw [slotOwner_of_not_takes (by simp [takes, hk])]
      exact ho.used k
    · rw [slotOwner_of_not_takes (by simp [takes, hk])] at hkt
      exact ho.data k t hkt
  | some action =>
    rw [hk] at hbody
    cases action with
    | registerAs =>
      obtain ⟨rfl, rfl⟩ := Prod.mk.inj hbody
      exact ⟨ho.add hk, by simp [answer, hk]⟩
    | whoIs =>
      obtain ⟨rfl, rfl⟩ := Prod.mk.inj hbody
      refine ⟨⟨ho.size, fun k => ?_, fun k t hkt => ?_⟩, ?_⟩
      · rw [slotOwner_of_not_takes (by simp [takes, hk])]
        exact ho.used k
      · rw [slotOwner_of_not_takes (by simp [takes, hk])] at hkt
        exact ho.data k t hkt
      · rw [answer, if_pos hk]
        congr 3
        have hused := ho.used (slot m.name)
        simp only [hashTableHas, hashTableGet, id, ho.slot_eq]
        cases howner : slotOwner h (slot m.name) with
        | none =>
          rw [howner] at hused
          simp [hused]
        | some t =>
          rw [howner] at hused
          simp [hused, ho.data _ t howner]

variable {data : Fin hashTableMaxSize → ℤ} {msg₀ : NameServerMsg CString}

/-- **The run lemma**: the table holds the owners of the slots after any messages. -/
theorem owners (run : Serves (nameServer id) (nameServerInit data msg₀) h s) : Owners h s := by
  induction run with
  | nil => exact Owners.nil data msg₀
  | snoc _ hok ih => exact (ih.step hok).1

theorem replies_eq (run : Serves (nameServer id) (nameServerInit data msg₀) h s)
    {q : List NameExchange} (hh : h = p ++ e :: q) :
    e.replies = [(e.sender, answer p e.message)] := by
  obtain ⟨s₁, s₂, run₁, hok⟩ := run.split hh
  exact ((owners run₁).step hok).2

/-- The owner of a slot registered a name. -/
theorem slotOwner_sender (ho : slotOwner p k = some t) : ∃ e ∈ p, e.sender = t := by
  obtain ⟨e, he, hsend⟩ := Option.map_eq_some_iff.mp ho
  exact ⟨e, List.mem_of_find?_eq_some he, hsend⟩

/-- A `WhoIs` finds the owner of the slot. -/
theorem finds_iff (hk : e.message.kind = some .whoIs)
    (hrep : e.replies = [(e.sender, answer p e.message)]) :
    Finds e t ↔ (slotOwner p (slot e.message.name)).getD (-1) = t := by
  have hwho : whoIs nameServerMsgSize (answer p e.message) =
      (slotOwner p (slot e.message.name)).getD (-1) := by
    rw [answer, if_pos hk]
    rfl
  constructor
  · rintro ⟨reply, hreply, hres⟩
    rw [hrep] at hreply
    obtain ⟨hreply, -⟩ := List.cons.inj hreply
    obtain ⟨-, rfl⟩ := Prod.mk.inj hreply
    exact hwho.symm.trans hres
  · intro howner
    exact ⟨_, hrep, hwho.trans howner⟩

/-- **The name server is a map exactly as long as the names that matter do not collide**: a
`WhoIs` obeys the law of a map if and only if the slot of its name was first taken for that name
by the task that registered it, or not at all. -/
theorem name_server_map_iff (data : Fin hashTableMaxSize → ℤ) (msg₀ : NameServerMsg CString)
    (h : List NameExchange) (s : NameServer CString)
    (run : Serves (nameServer id) (nameServerInit data msg₀) h s) (hc : Stepwise Call h) :
    ∀ p e q, h = p ++ e :: q → e.message.kind = some .whoIs →
      (MapLaw h p e ↔ NoCollision h p e) := by
  intro p e q hh hk
  have hrep := replies_eq run hh
  have htask : ∀ t, slotOwner p (slot e.message.name) = some t → t ≠ -1 := by
    intro t ht
    obtain ⟨f, hf, rfl⟩ := slotOwner_sender ht
    obtain ⟨p₁, p₂, rfl⟩ := List.append_of_mem hf
    exact (hc p₁ f (p₂ ++ e :: q) (by simp [hh])).task
  constructor
  · intro hlaw
    constructor
    · intro t ht honly
      have hfind := (finds_iff hk hrep).mp (hlaw.found t ht honly)
      cases howner : slotOwner p (slot e.message.name) with
      | some t' =>
        rw [howner] at hfind
        exact congrArg some hfind
      | none =>
        obtain ⟨f, hf, hkf, hname, rfl, -⟩ := ht
        have hnone := List.find?_eq_none.mp (Option.map_eq_none_iff.mp howner) f hf
        rw [takes, hname] at hnone
        simp [hkf] at hnone
    · intro hmiss
      have hfind := (finds_iff hk hrep).mp (hlaw.missing hmiss)
      cases howner : slotOwner p (slot e.message.name) with
      | none => rfl
      | some t =>
        rw [howner] at hfind
        exact absurd hfind (htask t howner)
  · intro hfree
    constructor
    · intro t ht honly
      rw [finds_iff hk hrep, hfree.found t ht honly]
      rfl
    · intro hmiss
      rw [finds_iff hk hrep, hfree.missing hmiss]
      rfl

/-- A name of one letter. -/
def nameExample (ch : U8) (hch : 0 ∉ [ch]) : CString := ⟨[ch], hch⟩

/-- Task 5 registers the name `a`. -/
def registerExample : NameExchange :=
  ⟨5, ⟨0, nameExample 97 (by decide), 5⟩, [(5, ⟨0, nameExample 97 (by decide), 5⟩)]⟩

/-- Task 6 looks a name up, and finds task 5. -/
def lookupExample (ch : U8) (hch : 0 ∉ [ch]) : NameExchange :=
  ⟨6, ⟨1, nameExample ch hch, 6⟩, [(6, ⟨1, nameExample ch hch, 5⟩)]⟩

theorem lookupExample_calls (ch : U8) (hch : 0 ∉ [ch]) :
    Stepwise Call [registerExample, lookupExample ch hch] :=
  stepwise_snoc (h := [_]).mpr ⟨stepwise_snoc (h := []).mpr ⟨stepwise_nil,
    ⟨⟨.registerAs, rfl⟩, by decide⟩⟩, ⟨⟨.whoIs, rfl⟩, show (6 : ℤ) ≠ -1 by decide⟩⟩

theorem lookupExample_serves (ch : U8) (hch : 0 ∉ [ch])
    (hrun : returns (serve (nameServer id)
      (nameServerInit (fun _ => 0) ⟨0, nameExample 97 (by decide), 0⟩)
      ([registerExample, lookupExample ch hch].map fun e => (e.sender, e.message)))
      (fun r => decide (r.1 = [registerExample, lookupExample ch hch])) = true) :
    ∃ s, Serves (nameServer id)
      (nameServerInit (fun _ => 0) ⟨0, nameExample 97 (by decide), 0⟩)
      [registerExample, lookupExample ch hch] s := by
  obtain ⟨⟨h, s⟩, hserve, hh⟩ := returns_iff.mp hrun
  obtain rfl : h = [registerExample, lookupExample ch hch] := of_decide_eq_true hh
  exact ⟨s, serves_of_serve hserve⟩

/-- The names `a` and `!` have one slot: nobody has registered `!`, and task 5 is found. -/
theorem name_server_collides : ∃ h s, Serves (nameServer id)
    (nameServerInit (fun _ => 0) ⟨0, nameExample 97 (by decide), 0⟩) h s ∧ Stepwise Call h ∧
      ∃ p e q, h = p ++ e :: q ∧ e.message.kind = some .whoIs ∧
        (∀ t, ¬ Registered h e.message.name t) ∧ Finds e 5 := by
  obtain ⟨s, run⟩ := lookupExample_serves 33 (by decide) (by decide +kernel)
  refine ⟨_, s, run, lookupExample_calls _ _, [registerExample], _, [], rfl, rfl, ?_,
    _, rfl, rfl⟩
  rintro t ⟨f, hf, hk, hname, -⟩
  rcases List.mem_cons.mp hf with rfl | hf
  · exact absurd hname (by decide)
  · obtain rfl := List.mem_singleton.mp hf
    exact absurd hk (by decide)

theorem name_server_map_run : MapLaw [registerExample, lookupExample 97 (by decide)]
    [registerExample] (lookupExample 97 (by decide)) := by
  obtain ⟨s, run⟩ := lookupExample_serves 97 (by decide) (by decide +kernel)
  refine (name_server_map_iff _ _ _ s run (lookupExample_calls 97 (by decide))
    [registerExample] _ [] rfl rfl).mpr ⟨?_, ?_⟩
  · rintro t ⟨f, hf, -, -, hsend, -⟩ -
    obtain rfl := List.mem_singleton.mp hf
    rw [← hsend]
    decide +kernel
  · intro hmiss
    exact absurd ⟨registerExample, List.mem_cons_self, rfl, rfl, rfl, _, rfl, rfl⟩ (hmiss 5)

end Names

end RealtimeKernel
