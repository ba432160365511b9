import Mathlib.Logic.Function.Basic
import Nachos.Lib.Runs

/-! Messages to boxes at addresses: what it means that a service may drop a message when it is
sent, and afterwards delivers every message once, to its box, in the order of sending.
-/

namespace OrderedDelivery
open Runs

variable {α β μ : Type}

/-- The messages on their way to each address, and those in its boxes. -/
structure Service (α β μ : Type) where
  transit : α → List μ
  boxes : α → β → List μ

def Service.empty : Service α β μ := { transit := fun _ => [], boxes := fun _ _ => [] }

inductive Event (α β μ : Type) where
  /-- A message that is not kept is lost. -/
  | send (address : α) (message : μ) (kept : Bool)
  /-- The oldest message on its way to the address goes to its box. -/
  | arrive (address : α)
  | take (address : α) (box : β) (message : μ)

variable [DecidableEq α] [DecidableEq β] [DecidableEq μ] (boxOf : μ → β)

def next (service : Service α β μ) : Event α β μ → Option (Service α β μ)
  | .send address message kept =>
      some {
        service with
        transit :=
          if kept then
            Function.update service.transit address (service.transit address ++ [message])
          else service.transit
      }
  | .arrive address =>
      (service.transit address).head?.map (fun message => {
        transit := Function.update service.transit address (service.transit address).tail
        boxes :=
          Function.update service.boxes address
            (Function.update (service.boxes address) (boxOf message)
              (service.boxes address (boxOf message) ++ [message]))
      })
  | .take address box message =>
      if (service.boxes address box).head? = some message then
        some {
          service with
          boxes :=
            Function.update service.boxes address
              (Function.update (service.boxes address) box (service.boxes address box).tail)
        }
      else none

variable {boxOf} {service after : Service α β μ} {address : α} {box : β}

/-- The oldest message in transit goes into its box. -/
theorem next_arrive {message : μ} {rest : List μ}
    (oldest : service.transit address = message :: rest)
    : next boxOf service (.arrive address)
      = some {
          transit := Function.update service.transit address rest
          boxes :=
            Function.update service.boxes address
              (Function.update (service.boxes address) (boxOf message)
                (service.boxes address (boxOf message) ++ [message]))
        } := by
  rw [next, oldest]
  rfl

theorem transit_of_arrive (stepped : next boxOf service (.arrive address) = some after)
    : after.transit address = (service.transit address).tail := by
  obtain ⟨message, oldest, rfl⟩ := Option.map_eq_some_iff.mp stepped
  exact Function.update_self ..

variable (boxOf)

/-- What an event sends to a box at an address, kept or not. -/
def Event.sends (address : α) (box : β) : Event α β μ → Option μ
  | .send target message _ => if target = address ∧ boxOf message = box then some message else none
  | _ => none

/-- What an event sends to a box at an address and is not lost. -/
def Event.keeps (address : α) (box : β) : Event α β μ → Option μ
  | .send target message kept =>
      if kept ∧ target = address ∧ boxOf message = box then some message else none
  | _ => none

/-- What an event takes out of a box at an address. -/
def Event.takes (address : α) (box : β) : Event α β μ → Option μ
  | .take target place message =>
      if target = address ∧ place = box then some message else none
  | _ => none

/-- What is still to be taken out of a box, in order. -/
def Service.remaining (service : Service α β μ) (address : α) (box : β) : List μ :=
  service.boxes address box
    ++ (service.transit address).filter (fun message => boxOf message = box)

variable {boxOf}

/-- One event adds what it keeps at the end, and takes from the front, by cases on the event. -/
theorem remaining_of_next {event : Event α β μ} (stepped : next boxOf service event = some after)
    : service.remaining boxOf address box ++ (event.keeps boxOf address box).toList
      = (event.takes address box).toList ++ after.remaining boxOf address box := by
  cases event with
  | send target message kept =>
      cases Option.some.inj stepped
      by_cases keeps : kept = true
      · by_cases here : target = address
        · subst here
          by_cases same : boxOf message = box <;>
            simp [Service.remaining, Event.keeps, Event.takes, keeps, same]
        · have elsewhere : address ≠ target := Ne.symm here
          simp [Service.remaining, Event.keeps, Event.takes, keeps, here, elsewhere]
      · simp [Service.remaining, Event.keeps, Event.takes, keeps]
  | arrive target =>
      obtain ⟨message, oldest, rfl⟩ := Option.map_eq_some_iff.mp stepped
      obtain ⟨rest, transit⟩ := List.head?_eq_some_iff.mp oldest
      by_cases here : target = address
      · subst here
        by_cases same : boxOf message = box
        · subst same
          simp [Service.remaining, Event.keeps, Event.takes, transit]
        · have other : box ≠ boxOf message := Ne.symm same
          simp [Service.remaining, Event.keeps, Event.takes, transit, same, other]
      · have elsewhere : address ≠ target := Ne.symm here
        simp [Service.remaining, Event.keeps, Event.takes, elsewhere]
  | take target place message =>
      rw [next] at stepped
      split at stepped
      · rename_i first
        cases Option.some.inj stepped
        obtain ⟨rest, content⟩ := List.head?_eq_some_iff.mp first
        by_cases here : target = address
        · subst here
          by_cases same : place = box
          · subst same
            simp [Service.remaining, Event.keeps, Event.takes, content]
          · have other : box ≠ place := Ne.symm same
            simp [Service.remaining, Event.keeps, Event.takes, same, other]
        · have elsewhere : address ≠ target := Ne.symm here
          simp [Service.remaining, Event.keeps, Event.takes, here, elsewhere]
      · exact absurd stepped (Option.some_ne_none _).symm

/-- What was taken out of a box and what remains for it are what was kept for it, in order, by
induction on the events.
-/
theorem remaining_of_follow {events : List (Event α β μ)}
    (followed : follow (next boxOf) events service = some after)
    : service.remaining boxOf address box ++ events.filterMap (Event.keeps boxOf address box)
      = events.filterMap (Event.takes address box) ++ after.remaining boxOf address box := by
  induction events generalizing service with
  | nil =>
      cases Option.some.inj followed
      rw [List.filterMap_nil, List.filterMap_nil, List.append_nil, List.nil_append]
  | cons event rest ih =>
      obtain ⟨middle, first, others⟩ := Option.bind_eq_some_iff.mp followed
      have step := @remaining_of_next _ _ _ _ _ _ _ _ _ address box _ first
      have kept : (event :: rest).filterMap (Event.keeps boxOf address box)
          = (event.keeps boxOf address box).toList
            ++ rest.filterMap (Event.keeps boxOf address box) := by
        cases has : event.keeps boxOf address box <;> simp [has]
      have taken : (event :: rest).filterMap (Event.takes address box)
          = (event.takes address box).toList ++ rest.filterMap (Event.takes address box) := by
        cases has : event.takes address box <;> simp [has]
      rw [kept, taken, ← List.append_assoc, step, List.append_assoc, ih others, List.append_assoc]

theorem takes_of_follow {events : List (Event α β μ)}
    (followed : follow (next boxOf) events Service.empty = some after) (address : α) (box : β)
    : events.filterMap (Event.keeps boxOf address box)
      = events.filterMap (Event.takes address box)
        ++ (after.boxes address box
          ++ (after.transit address).filter (fun message => boxOf message = box)) :=
  @remaining_of_follow _ _ _ _ _ _ _ _ _ address box _ followed

omit [DecidableEq μ] in
/-- What is kept is part of what is sent, in the same order, by induction on the events. -/
theorem keeps_sublist_sends (events : List (Event α β μ)) (address : α) (box : β)
    : (events.filterMap (Event.keeps boxOf address box)).Sublist
        (events.filterMap (Event.sends boxOf address box)) := by
  induction events with
  | nil => exact .slnil
  | cons event rest ih =>
      cases kept : event.keeps boxOf address box with
      | none =>
          rw [List.filterMap_cons_none kept]
          cases sent : event.sends boxOf address box with
          | none => rwa [List.filterMap_cons_none sent]
          | some message =>
              rw [List.filterMap_cons_some sent]
              exact ih.cons message
      | some message =>
          have sent : event.sends boxOf address box = some message := by
            cases event with
            | send target letter isKept =>
                simp only [Event.keeps] at kept
                split at kept
                · rename_i holds
                  rw [Event.sends, if_pos holds.2]
                  exact kept
                · exact absurd kept (Option.some_ne_none _).symm
            | arrive target => exact absurd kept (Option.some_ne_none _).symm
            | take target place letter => exact absurd kept (Option.some_ne_none _).symm
          rw [List.filterMap_cons_some kept, List.filterMap_cons_some sent]
          exact ih.cons_cons message

end OrderedDelivery
