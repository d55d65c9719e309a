import SpriteStage.Proofs.World.Edits

/-!
The requests for the mouse in a world. Nothing that a statement does at once opens or closes one
(`World.Edited.asked`), and a new request leaves all that are open as they are.
-/

namespace SpriteStage.World

variable {w w' : World}

theorem openTickets_requestMouse (w : World) :
    w.requestMouse.2.openTickets = w.openTickets ++ [w.nextTicket] := by
  simp [requestMouse, openTickets]

theorem openTickets_closeRequest (w : World) (ticket : Nat) :
    (w.closeRequest ticket).openTickets = w.openTickets.filter (· != ticket) := by
  simp only [closeRequest, openTickets]
  induction w.requests with
  | nil => rfl
  | cons r rest ih =>
    by_cases ht : r.ticket = ticket
    · cases ho : r.isOpen <;> simp [ht, ho, ih]
    · cases ho : r.isOpen <;> simp [ht, ho, ih]

theorem openTickets_closeRequests (w : World) (tickets : List Nat) :
    (tickets.foldl closeRequest w).openTickets = w.openTickets.filter (!tickets.contains ·) := by
  induction tickets generalizing w with
  | nil => exact (List.filter_eq_self.2 fun _ _ => rfl).symm
  | cons ticket rest ih =>
    rw [List.foldl_cons, ih, openTickets_closeRequest, List.filter_filter]
    refine List.filter_congr fun other _ => ?_
    rw [List.contains_cons, Bool.not_or, Bool.and_comm]
    rfl

/-- What a world keeps of the requests for the mouse. -/
def asked (w : World) : List MouseRequest × Nat :=
  (w.requests, w.nextTicket)

theorem openTickets_of_asked (h : w'.asked = w.asked) : w'.openTickets = w.openTickets := by
  rw [openTickets, openTickets, (Prod.mk.inj h).1]

theorem Edited.asked {speech : Bool} (h : w.Edited speech false w') : w'.asked = w.asked := by
  induction h with
  | trans _ _ ih ih' => exact ih'.trans ih
  | setCell w id name v => cases w.cell id name <;> rfl
  | requests w hm => cases hm
  | _ => rfl

end SpriteStage.World
