import VoxLink.Backend.Entities
import VoxLink.ProofKit.Runs

/-! `NotificationCenter`: a list of the last notifications and, beside it, a count of the unread
ones that every handler changes by hand. -/

namespace VoxLink

open ProofKit

namespace Client

inductive NotificationType where
  | mention
  | voiceJoin
  | message
  | event
deriving DecidableEq, Repr

structure Notification where
  id : String
  type : NotificationType
  title : String
  message : String
  timestamp : Date
  read : Bool
  channelId : Option String
  userId : Option String
deriving DecidableEq, Repr

/-- What an event `notification` carries. -/
structure NotificationData where
  type : NotificationType
  title : String
  message : String
  channelId : Option String
  userId : Option String

/-- The state of the component, without whether it is open. -/
structure NotificationCenter where
  notifications : List Notification
  unreadCount : Nat
deriving DecidableEq, Repr

inductive NotificationInput where
  | arrives (data : NotificationData) (now : Date)
  | markAsRead (id : String)
  | markAllAsRead
  | clearNotification (id : String)
  | clearAll

namespace NotificationCenter

variable (c : NotificationCenter)

def initial : NotificationCenter := ⟨[], 0⟩

/-- The milliseconds of the clock are the id. -/
def handleNotification (data : NotificationData) (now : Date) : NotificationCenter :=
  let notification : Notification :=
    { id := toString now, type := data.type, title := data.title, message := data.message
      timestamp := now, read := false, channelId := data.channelId, userId := data.userId }
  { notifications := notification :: c.notifications.take 49, unreadCount := c.unreadCount + 1 }

-- `Math.max(0, prev - 1)`
def markAsRead (id : String) : NotificationCenter :=
  { notifications := c.notifications.map fun n => if n.id = id then { n with read := true } else n
    unreadCount := c.unreadCount - 1 }

def markAllAsRead : NotificationCenter :=
  { notifications := c.notifications.map fun n => { n with read := true }, unreadCount := 0 }

def clearNotification (id : String) : NotificationCenter :=
  { c with notifications := c.notifications.filter (·.id ≠ id) }

def clearAll : NotificationCenter := { c with notifications := [] }

def next : NotificationInput → NotificationCenter
  | .arrives data now => c.handleNotification data now
  | .markAsRead id => c.markAsRead id
  | .markAllAsRead => c.markAllAsRead
  | .clearNotification id => c.clearNotification id
  | .clearAll => c.clearAll

def step (c : NotificationCenter) (i : NotificationInput) : Unit × NotificationCenter :=
  ((), c.next i)

/-- How many notifications of the list are unread. -/
def unread : Nat := c.notifications.countP (!·.read)

/-- How many of them have the id. -/
def unreadOf (id : String) : Nat := c.notifications.countP fun n => n.id = id && !n.read

/-- The badge shows how many notifications are unread. -/
def Exact : Prop := c.unreadCount = c.unread

/-- The handler changes the count by more or less than it changes the unread notifications: one is
evicted or cleared, or not exactly one is marked. -/
def miscounts : NotificationInput → Bool
  | .arrives _ _ => (c.notifications.drop 49).any (!·.read)
  | .markAsRead id => c.unread ≠ 0 && c.unreadOf id ≠ 1
  | .markAllAsRead => false
  | .clearNotification id => c.unreadOf id ≠ 0
  | .clearAll => c.unread ≠ 0

variable {c}

theorem unread_arrives (data : NotificationData) (now : Date) :
    (c.handleNotification data now).unread + (c.notifications.drop 49).countP (!·.read) =
      c.unread + 1 := by
  have hsplit : c.unread = (c.notifications.take 49).countP (!·.read) +
      (c.notifications.drop 49).countP (!·.read) := by
    rw [unread, ← List.countP_append, List.take_append_drop]
  simp only [unread, handleNotification, List.countP_cons, Bool.not_false, if_true] at hsplit ⊢
  omega

/-- The unread notifications with another id, and those with this one. -/
theorem unread_split (id : String) :
    c.notifications.countP (fun n => n.id ≠ id && !n.read) + c.unreadOf id = c.unread := by
  have hsplit := List.countP_eq_countP_filter_add c.notifications (!·.read) (·.id ≠ id)
  rw [List.countP_filter, List.countP_filter] at hsplit
  rw [unread, hsplit, unreadOf]
  congr 1
  · exact List.countP_congr fun n _ => by simp [and_comm]
  · exact List.countP_congr fun n _ => by simp [and_comm]

theorem unread_markAsRead (id : String) :
    (c.markAsRead id).unread + c.unreadOf id = c.unread := by
  rw [← unread_split (c := c) id, unread, markAsRead, List.countP_map]
  congr 1
  refine List.countP_congr fun n _ => ?_
  by_cases hid : n.id = id <;> simp [hid]

theorem unread_markAllAsRead : c.markAllAsRead.unread = 0 := by
  apply List.countP_eq_zero.mpr
  intro n hn
  obtain ⟨_, -, rfl⟩ := List.mem_map.mp hn
  exact Bool.false_ne_true

theorem unread_clearNotification (id : String) :
    (c.clearNotification id).unread + c.unreadOf id = c.unread := by
  rw [← unread_split (c := c) id, unread, clearNotification, List.countP_filter]
  congr 1
  exact List.countP_congr fun n _ => by simp [and_comm]

/-- A handler that does not miscount keeps the badge exact, and no other does. -/
theorem exact_next_iff (h : c.Exact) (i : NotificationInput) :
    (c.next i).Exact ↔ c.miscounts i = false := by
  unfold Exact at *
  cases i with
  | arrives data now =>
    have hcount := unread_arrives (c := c) data now
    have hevicted : (c.notifications.drop 49).any (!·.read) = false ↔
        (c.notifications.drop 49).countP (!·.read) = 0 := by
      rw [List.any_eq_false, List.countP_eq_zero]
    show c.unreadCount + 1 = (c.handleNotification data now).unread ↔ _ = false
    rw [miscounts, hevicted]
    omega
  | markAsRead id =>
    have hcount := unread_markAsRead (c := c) id
    show c.unreadCount - 1 = (c.markAsRead id).unread ↔ _ = false
    simp only [miscounts, Bool.and_eq_false_iff, decide_eq_false_iff_not, not_not]
    omega
  | markAllAsRead =>
    show 0 = c.markAllAsRead.unread ↔ false = false
    simp [unread_markAllAsRead]
  | clearNotification id =>
    have hcount := unread_clearNotification (c := c) id
    show c.unreadCount = (c.clearNotification id).unread ↔ _ = false
    simp only [miscounts, decide_eq_false_iff_not, not_not]
    omega
  | clearAll =>
    show c.unreadCount = 0 ↔ _ = false
    simp only [miscounts, decide_eq_false_iff_not, not_not]
    omega

/-- The badge is exact in every state of a run if and only if no handler miscounts. -/
theorem badge_exact_iff (is : List NotificationInput) :
    Along step (fun c i => (c.next i).Exact) initial is ↔
      Along step (fun c i => c.miscounts i = false) initial is := by
  have hstart : initial.Exact := rfl
  have hall : Along step (fun _ _ => True) initial is := along_of_forall (fun _ _ => trivial) _ _
  exact hall.congr_invariant (I := Exact) (fun c i h _ => exact_next_iff h i)
    (fun c i _ _ hexact => hexact) hstart

def mention : NotificationData := ⟨.mention, "Alice", "hello", none, none⟩

/-- One notification comes and is cleared unread. -/
theorem cleared_notification_counted :
    ¬∀ is, (run step initial is).Exact := by
  intro hexact
  exact absurd (hexact [.arrives mention 7, .clearNotification "7"]) (by unfold Exact; decide)

end NotificationCenter

end Client

end VoxLink
