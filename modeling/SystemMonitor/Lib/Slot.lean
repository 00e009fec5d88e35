import SystemMonitor.Lib.Machine

/-! A one-place buffer that its producer fills in place.

The producer claims the slot, writes it, and either leaves it full or abandons
it; the consumer takes what is in a full slot. The slot refuses to be claimed
while it is full, so an accepted history takes every value exactly once, in
order, before it is overwritten (`puts_eq`). -/
namespace SystemMonitor.Lib

inductive Slot (β : Type) where
  | empty
  | claimed
  | full (x : β)

inductive SlotEvent (β : Type) where
  | claim
  | abandon
  | put (x : β)
  | take (x : β)

namespace Slot
variable {β : Type} [DecidableEq β]

def next : Slot β → SlotEvent β → Option (Slot β)
  | .empty, .claim => some .claimed
  | .claimed, .abandon => some .empty
  | .claimed, .put x => some (.full x)
  | .full x, .take y => if x = y then some .empty else none
  | _, _ => none

def machine : Machine (Slot β) (SlotEvent β) := ⟨next⟩

/-- What the slot holds. -/
def held : Slot β → List β
  | .full x => [x]
  | _ => []

end Slot

namespace SlotEvent
variable {β : Type}

def puts (events : List (SlotEvent β)) : List β :=
  events.filterMap fun
    | .put x => some x
    | _ => none

def takes (events : List (SlotEvent β)) : List β :=
  events.filterMap fun
    | .take x => some x
    | _ => none

theorem puts_append (a b : List (SlotEvent β)) : puts (a ++ b) = puts a ++ puts b :=
  List.filterMap_append

end SlotEvent

open SlotEvent

/-- An accepted history takes exactly what was put, in order, but for what the
slot still holds. -/
theorem Slot.puts_eq {β : Type} [DecidableEq β] {s t : Slot β} {events : List (SlotEvent β)}
    (h : Slot.machine.run s events = some t) :
    s.held ++ puts events = takes events ++ t.held := by
  induction events generalizing s with
  | nil =>
    cases h
    simp [puts, takes]
  | cons e rest ih =>
    obtain ⟨u, hu, hrest⟩ := Machine.run_cons _ h
    have hind := ih hrest
    have hnext : Slot.next s e = some u := hu
    cases s <;> cases e <;> simp only [Slot.next, reduceCtorEq, Option.some.injEq] at hnext
    · subst hnext
      simpa [Slot.held, puts, takes] using hind
    · subst hnext
      simpa [Slot.held, puts, takes] using hind
    · subst hnext
      simpa [Slot.held, puts, takes] using hind
    · split at hnext
      · cases hnext
        rename_i hxy
        subst hxy
        simpa [Slot.held, puts, takes] using hind
      · cases hnext

end SystemMonitor.Lib
