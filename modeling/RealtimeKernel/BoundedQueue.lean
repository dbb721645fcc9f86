import RealtimeKernel.Lib.Sessions
import RealtimeKernel.Queue

/-!
# The ring queue is a bounded FIFO

A session with the ring queue is a list of calls of `queue_push` and `queue_pop`.  The queue
without indices is a list of at most `bound` elements, the oldest first; every session with the
ring of capacity `c` is a session with the list of bound `c - 1`, answer by answer.
-/

namespace RealtimeKernel

open Lib

inductive QueueCall
  | push (elem : U64)
  | pop
  deriving DecidableEq, Repr

inductive QueueAnswer
  | pushed (ok : Bool)
  | popped (elem : U64)
  deriving DecidableEq, Repr

/-- A call of `queue_push` or `queue_pop`; neither can fail. -/
def queueCall : Component Queue QueueCall QueueAnswer Empty
  | queue, .push elem => .ok (.pushed (queuePush queue elem).1, (queuePush queue elem).2)
  | queue, .pop => .ok (.popped (queuePop queue).1, (queuePop queue).2)

/-- The same calls on a list of at most `bound` elements. -/
def fifoCall (bound : ℕ) : Component (List U64) QueueCall QueueAnswer Empty
  | l, .push elem =>
    if l.length < bound then .ok (.pushed true, l ++ [elem]) else .ok (.pushed false, l)
  | [], .pop => .ok (.popped 0, [])
  | elem :: l, .pop => .ok (.popped elem, l)

namespace Queue

variable {q : Queue} {c : ℕ} {l : List U64}

/-- The ring of capacity `c` stores the elements of `l`, oldest first. -/
structure Stores (c : ℕ) (q : Queue) (l : List U64) : Prop where
  ok : q.Ok
  capacity : q.capacity = c
  contents : q.contents = l

namespace Stores

theorem init (container : ℕ → U64) (hc : 0 < c) : Stores c (queueInit container c) [] :=
  ⟨init_ok container hc, rfl, init_contents container c⟩

theorem used (h : Stores c q l) : q.used = l.length := by
  rw [← contents_length, h.contents]

theorem isEmpty (h : Stores c q l) : queueIsEmpty q = true ↔ l = [] := by
  rw [isEmpty_iff h.ok, h.contents]

theorem isFull (h : Stores c q l) : queueIsFull q = true ↔ l.length = c - 1 := by
  have hlt := used_lt h.ok
  rw [isFull_iff h.ok]
  rw [h.capacity, h.used] at *
  omega

theorem push_fst (h : Stores c q l) (e : U64) :
    (queuePush q e).1 = true ↔ l.length < c - 1 := by
  rw [Queue.push_fst h.ok, h.used, h.capacity]
  omega

/-- A push to a ring with room appends the element. -/
theorem push (h : Stores c q l) {e : U64} (hroom : l.length < c - 1) :
    Stores c (queuePush q e).2 (l ++ [e]) where
  ok := push_ok h.ok e
  capacity := (push_capacity e).trans h.capacity
  contents := by rw [push_contents h.ok e ((h.push_fst e).mpr hroom), h.contents]

/-- A push to a full ring is refused and changes nothing. -/
theorem push_refused (h : Stores c q l) {e : U64} (hfull : ¬l.length < c - 1) :
    queuePush q e = (false, q) := by
  have hfalse : (queuePush q e).1 = false := by
    rw [Bool.eq_false_iff, Ne, h.push_fst]
    exact hfull
  apply Prod.ext
  · exact hfalse
  · exact push_full e hfalse

theorem pop_nil (h : Stores c q []) : queuePop q = (0, q) := by
  have hempty := h.isEmpty.mpr rfl
  rw [queuePop, if_pos hempty]

theorem contents_eq_cons {e : U64} (h : Stores c q (e :: l)) :
    e :: l = (queuePop q).1 :: (queuePop q).2.contents := by
  have hne : queueIsEmpty q = false := by simp [Bool.eq_false_iff, h.isEmpty]
  rw [← h.contents]
  exact pop_contents h.ok hne

/-- A pop returns the oldest element. -/
theorem pop_fst {e : U64} (h : Stores c q (e :: l)) : (queuePop q).1 = e :=
  (List.cons.inj h.contents_eq_cons).1.symm

theorem pop {e : U64} (h : Stores c q (e :: l)) : Stores c (queuePop q).2 l where
  ok := pop_ok h.ok
  capacity := pop_capacity.trans h.capacity
  contents := (List.cons.inj h.contents_eq_cons).2.symm

/-- The elements lie in the slots from the head on. -/
theorem getElem (h : Stores c q l) {i : ℕ} (hi : i < l.length) :
    q.container ((q.head + i) % c) = l[i] := by
  have hcontents := h.contents
  have hcap := h.capacity
  subst hcontents hcap
  simp [Queue.contents]

theorem push_head (e : U64) : (queuePush q e).2.head = q.head := by
  unfold queuePush
  split <;> rfl

/-- A push, whether it is refused or not, leaves the slots of the stored elements alone. -/
theorem push_container (h : Stores c q l) (e : U64) {i : ℕ} (hi : i < l.length) :
    (queuePush q e).2.container ((q.head + i) % c) = l[i] := by
  by_cases hroom : l.length < c - 1
  · have hnew := (h.push (e := e) hroom).getElem (i := i) (by simp; omega)
    rw [push_head, List.getElem_append_left hi] at hnew
    exact hnew
  · rw [h.push_refused hroom]
    exact h.getElem hi

end Stores

/-- Each call of the ring is the same call of the list. -/
theorem queueCall_refines {a : QueueCall} {r : QueueAnswer} {q' : Queue}
    (h : Stores c q l) (hcall : queueCall q a = .ok (r, q')) :
    ∃ l', fifoCall (c - 1) l a = .ok (r, l') ∧ Stores c q' l' := by
  cases a with
  | push e =>
    by_cases hroom : l.length < c - 1
    · have hpush := (h.push_fst e).mpr hroom
      rw [queueCall, hpush] at hcall
      cases hcall
      exact ⟨l ++ [e], if_pos hroom, h.push hroom⟩
    · rw [queueCall, h.push_refused hroom] at hcall
      cases hcall
      exact ⟨l, if_neg hroom, h⟩
  | pop =>
    cases l with
    | nil =>
      rw [queueCall, h.pop_nil] at hcall
      cases hcall
      exact ⟨[], rfl, h⟩
    | cons e l =>
      rw [queueCall, h.pop_fst] at hcall
      cases hcall
      exact ⟨l, rfl, h.pop⟩

end Queue

/-- **The ring queue is a bounded FIFO.**  Every session with a ring of capacity `c` is, answer
by answer, a session with a list of at most `c - 1` elements; in the state it ends in, the list
lies in the slots from `head` on, the indices are in range, the two tests are exact, and a push
and a pop do what they do on the list, a push leaving the stored elements where they are. -/
theorem queue_bounded_fifo (container : ℕ → U64) {c : ℕ} (hc : 2 ≤ c)
    {h : List (QueueCall × QueueAnswer)} {q : Queue}
    (hq : Session queueCall (queueInit container c) h q) :
    ∃ l, Session (fifoCall (c - 1)) [] h l ∧ q.contents = l ∧ q.head < c ∧ q.tail < c ∧
      (queueIsEmpty q = true ↔ l = []) ∧ (queueIsFull q = true ↔ l.length = c - 1) ∧
      (∀ e, ((queuePush q e).1 = true ↔ l.length < c - 1) ∧
        ((queuePush q e).1 = true → (queuePush q e).2.contents = l ++ [e]) ∧
        ((queuePush q e).1 = false → (queuePush q e).2 = q) ∧
        ∀ i, (hi : i < l.length) →
          q.container ((q.head + i) % c) = l[i] ∧
          (queuePush q e).2.container ((q.head + i) % c) = l[i]) ∧
      ∀ e l', l = e :: l' → (queuePop q).1 = e ∧ (queuePop q).2.contents = l' := by
  obtain ⟨l, hl, hs⟩ := hq.refines (Queue.Stores.init container (by omega))
    fun s t a r s' hR hstep => Queue.queueCall_refines hR hstep
  refine ⟨l, hl, hs.contents, ?_, ?_, hs.isEmpty, hs.isFull, ?_, ?_⟩
  · exact hs.capacity ▸ hs.ok.head_lt
  · exact hs.capacity ▸ hs.ok.tail_lt
  · intro e
    refine ⟨hs.push_fst e, ?_, Queue.push_full e, ?_⟩
    · intro hpush
      exact (hs.push ((hs.push_fst e).mp hpush)).contents
    · intro i hi
      exact ⟨hs.getElem hi, hs.push_container e hi⟩
  · intro e l' hcons
    subst hcons
    exact ⟨hs.pop_fst, hs.pop.contents⟩

/-- Three slots hold two elements: the third push is refused, and the indices wrap. -/
theorem queue_bounded_fifo_three :
    ∃ h q, Session queueCall (queueInit (fun _ => 0) 3) h q ∧
      h = [(.push 5, .pushed true), (.push 6, .pushed true), (.push 7, .pushed false),
        (.pop, .popped 5), (.push 8, .pushed true), (.pop, .popped 6)] ∧
      ∃ l, Session (fifoCall 2) [] h l ∧ q.contents = l := by
  have hrun : ∃ h q, Session.exec queueCall (queueInit (fun _ => 0) 3)
      [.push 5, .push 6, .push 7, .pop, .push 8, .pop] = .ok (h, q) ∧
      h = [(.push 5, .pushed true), (.push 6, .pushed true), (.push 7, .pushed false),
        (.pop, .popped 5), (.push 8, .pushed true), (.pop, .popped 6)] := ⟨_, _, rfl, rfl⟩
  obtain ⟨h, q, hexec, hh⟩ := hrun
  have hq := Session.of_exec hexec
  obtain ⟨l, hl, hcontents, -⟩ := queue_bounded_fifo (fun _ => 0) (by decide) hq
  exact ⟨h, q, hq, hh, l, hl, hcontents⟩

end RealtimeKernel
