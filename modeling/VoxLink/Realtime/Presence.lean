import VoxLink.Realtime.Turns

/-! What the sockets say of a user, which handlers may still write his status, and when none
runs. -/

namespace VoxLink

open ProofKit

/-- Whether a connected socket has the account `u`. -/
def Gateway.attached (g : Gateway) (u : Uuid) : Bool :=
  g.sockets.any fun s => s.user.any (·.id = u)

/-- The status that the sockets give `u`. -/
def Gateway.presence (g : Gateway) (u : Uuid) : String :=
  if g.attached u then "online" else "offline"

namespace Phase

/-- Whether the handler may still write the status of `u`. -/
def writes (u : Uuid) : Phase → Bool
  | .account sub => sub = u
  | .online user | .offline user => user.id = u
  | _ => false

/-- No handler runs: the event has not come or the handler has ended. -/
def resting : Phase → Bool
  | .idle | .finished => true
  | _ => false

end Phase

namespace Task

def connects (t : Task) : Bool :=
  match t.event with
  | .connection _ => true
  | _ => false

def waiting (ts : List Task) (g : Gateway) : Pool (Task × Phase) Gateway := ⟨ts.map (·, .idle), g⟩

end Task

end VoxLink
