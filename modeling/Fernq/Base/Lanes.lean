import Mathlib.Tactic

/-!
Tasks dispatched to lanes: a task is accepted, waits in the lane its route names, and is
finished from the front of that lane.

* `Lanes`: the log of such a dispatcher, with the order of each lane as a field.
* `Lanes.push`, `Lanes.finish`: its two operations.
* `Lanes.accepted_filter`: among tasks that share a lane, those accepted are those finished and
  those that wait, in this order.
-/

namespace Fernq

variable {α β ι : Type*} [DecidableEq ι]

/-- The tasks accepted so far, the tasks finished so far with their results, and the tasks that
wait in each lane. -/
structure Lanes (route : α → ι) (β : Type*) where
  accepted : List α
  finished : List (α × β)
  lane : ι → List α
  fifo : ∀ i, accepted.filter (route · = i) =
    (finished.map Prod.fst).filter (route · = i) ++ lane i

namespace Lanes

variable {route : α → ι} {i : ι} {a : α} {rest : List α}

/-- Nothing has been accepted. -/
def empty : Lanes route β := ⟨[], [], fun _ => [], fun _ => rfl⟩

lemma route_of_mem_lane (L : Lanes route β) (h : a ∈ L.lane i) : route a = i := by
  have hmem : a ∈ L.accepted.filter (route · = i) := by
    rw [L.fifo i]
    exact List.mem_append_right _ h
  simpa using (List.mem_filter.mp hmem).2

/-- A task goes to the end of its lane. -/
def push (L : Lanes route β) (a : α) : Lanes route β where
  accepted := L.accepted ++ [a]
  finished := L.finished
  lane := Function.update L.lane (route a) (L.lane (route a) ++ [a])
  fifo i := by
    rcases eq_or_ne i (route a) with rfl | hi
    · simp [L.fifo]
    · simp [L.fifo, hi, hi.symm]

/-- The task at the front of a lane is finished, with a result. -/
def finish (L : Lanes route β) (i : ι) (b : β) : Lanes route β :=
  match h : L.lane i with
  | [] => L
  | a :: rest =>
    { accepted := L.accepted
      finished := L.finished ++ [(a, b)]
      lane := Function.update L.lane i rest
      fifo := fun j => by
        have hroute : route a = i := L.route_of_mem_lane (h ▸ List.mem_cons_self)
        rcases eq_or_ne j i with rfl | hj
        · simp [L.fifo, h, hroute]
        · simp [L.fifo, hj, hroute, hj.symm] }

section Operations

variable (L : Lanes route β) (b : β)

@[simp] lemma accepted_push : (L.push a).accepted = L.accepted ++ [a] := rfl

@[simp] lemma finished_push : (L.push a).finished = L.finished := rfl

lemma lane_push (i : ι) :
    (L.push a).lane i = L.lane i ++ if i = route a then [a] else [] := by
  rcases eq_or_ne i (route a) with rfl | hi
  · simp [push]
  · simp [push, hi]

@[simp] lemma accepted_finish : (L.finish i b).accepted = L.accepted := by
  unfold finish
  split <;> rfl

lemma finished_finish (h : L.lane i = a :: rest) :
    (L.finish i b).finished = L.finished ++ [(a, b)] := by
  unfold finish
  split
  · simp_all
  · simp_all

lemma lane_finish_self (h : L.lane i = a :: rest) : (L.finish i b).lane i = rest := by
  unfold finish
  split
  · simp_all
  · simp_all

lemma lane_finish_of_ne {j : ι} (hj : j ≠ i) : (L.finish i b).lane j = L.lane j := by
  unfold finish
  split
  · rfl
  · exact Function.update_of_ne hj ..

end Operations

variable (L : Lanes route β) {p : α → Bool}

/-- A choice among the chosen. -/
lemma filter_filter_of_imp {q : α → Bool} (hpq : ∀ a, p a = true → q a = true) (xs : List α) :
    (xs.filter q).filter p = xs.filter p := by
  rw [List.filter_filter]
  refine List.filter_congr fun a _ => ?_
  by_cases ha : p a = true
  · simp [ha, hpq a ha]
  · simp [ha]

/-- Tasks that share a lane are chosen from those of the lane. -/
lemma filter_filter_route (hp : ∀ a, p a = true → route a = i) (xs : List α) :
    (xs.filter (route · = i)).filter p = xs.filter p :=
  filter_filter_of_imp (fun a ha => by simp [hp a ha]) xs

/-- Tasks that share a lane keep their order: the finished ones, and after them those that
wait. -/
theorem accepted_filter (hp : ∀ a, p a = true → route a = i) :
    L.accepted.filter p = (L.finished.map Prod.fst).filter p ++ (L.lane i).filter p := by
  rw [← filter_filter_route hp, L.fifo i, List.filter_append, filter_filter_route hp]

/-- A task that was finished was accepted. -/
lemma mem_accepted_of_mem_finished {x : α × β} (h : x ∈ L.finished) : x.1 ∈ L.accepted := by
  have hmem : x.1 ∈ L.accepted.filter (route · = route x.1) := by
    rw [L.fifo]
    refine List.mem_append_left _ (List.mem_filter.mpr ⟨List.mem_map_of_mem h, by simp⟩)
  exact (List.mem_filter.mp hmem).1

end Lanes

end Fernq
