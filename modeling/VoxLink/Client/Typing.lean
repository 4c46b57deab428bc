import VoxLink.ProofKit.Runs

/-! `ChatWindow`: what a mounted window emits about its user's typing. Its timer tells the channel
that the window was mounted with, whichever it shows. -/

namespace VoxLink

open ProofKit

namespace Client

/-! ### The window -/

/-- The white space and the line ends of `trim`. -/
def isTrimmed (c : Char) : Bool :=
  c.toNat ∈ [0x9, 0xA, 0xB, 0xC, 0xD, 0x20, 0xA0, 0x1680, 0x2028, 0x2029, 0x202F, 0x205F, 0x3000,
    0xFEFF] || (0x2000 ≤ c.toNat && c.toNat ≤ 0x200A)

/-- Whether `text.trim()` is empty. -/
def isBlank (text : String) : Bool := text.toList.all isTrimmed

/-- What the window makes the service emit. -/
inductive WindowEvent where
  | messageSend (channelId content : String)
  | typingStart (channelId : String)
  | typingStop (channelId : String)
deriving DecidableEq, Repr

def setTyping (channelId : String) (isTyping : Bool) : WindowEvent :=
  if isTyping then .typingStart channelId else .typingStop channelId

/-- What the handlers of the last render see. -/
structure ChatRendered where
  channelId : String
  signedIn : Bool
  message : String
  isTyping : Bool
deriving DecidableEq, Repr

/-- A mounted window. Its state is the one that the next render sees; `stopTyping` says whether the
timer of `debouncedStopTyping` is pending. -/
structure ChatWindow where
  message : String
  isTyping : Bool
  rendered : ChatRendered
  stopTyping : Bool
  emitted : List WindowEvent
deriving DecidableEq, Repr

/-- What happens while the window is mounted, in any order. -/
inductive ChatInput where
  /-- A render with the channel of the props and whether there is a user. -/
  | render (channelId : String) (signedIn : Bool)
  | types (value : String)
  /-- The key Enter or the button of `MessageInput`. -/
  | sends
  /-- The timer of `debouncedStopTyping`. -/
  | fires
deriving DecidableEq, Repr

namespace ChatWindow

/-- The first render. -/
def mount (channelId : String) (signedIn : Bool) : ChatWindow :=
  { message := "", isTyping := false, rendered := ⟨channelId, signedIn, "", false⟩
    stopTyping := false, emitted := [] }

variable (w : ChatWindow)

def handleSendMessage (content : String) : ChatWindow :=
  if isBlank content || !w.rendered.signedIn then w
  else
    { w with
      message := "", isTyping := false
      emitted := w.emitted ++
        [.messageSend w.rendered.channelId content, setTyping w.rendered.channelId false] }

def handleTyping (value : String) : ChatWindow :=
  if !isBlank value && !w.rendered.isTyping then
    { w with
      message := value, isTyping := true, stopTyping := true
      emitted := w.emitted ++ [setTyping w.rendered.channelId true] }
  else { w with message := value, stopTyping := true }

/-- The function that `debouncedStopTyping` wraps. It is of the first render, as its channel is. -/
def debouncedStopTyping (mounted : String) : ChatWindow :=
  if w.stopTyping then
    { w with
      isTyping := false, stopTyping := false
      emitted := w.emitted ++ [setTyping mounted false] }
  else w

/-- One input, in a window that was mounted with the channel `mounted`. -/
def next (mounted : String) : ChatInput → ChatWindow
  | .render channelId signedIn =>
    { w with rendered := ⟨channelId, signedIn, w.message, w.isTyping⟩ }
  | .types value => w.handleTyping value
  -- the input has the value that it was rendered with
  | .sends => w.handleSendMessage w.rendered.message
  | .fires => w.debouncedStopTyping mounted

def step (mounted : String) (w : ChatWindow) (i : ChatInput) : Unit × ChatWindow :=
  ((), w.next mounted i)

/-- The window after the inputs. -/
abbrev after (mounted : String) (signedIn : Bool) (is : List ChatInput) : ChatWindow :=
  run (step mounted) (mount mounted signedIn) is

/-! ### What the others see -/

/-- What the event says of typing in the channel. -/
def typingIn (c : String) : WindowEvent → Option Bool
  | .typingStart channelId => if channelId = c then some true else none
  | .typingStop channelId => if channelId = c then some false else none
  | .messageSend _ _ => none

/-- What the last event about the channel says. -/
def lastTyping (c : String) : Option Bool := (w.emitted.filterMap (typingIn c)).getLast?

/-- When no timer is pending, no channel still shows that the user is typing. -/
def Cleared : Prop := w.stopTyping = false → ∀ c, w.lastTyping c ≠ some true

/-- The input starts the indicator of the channel. -/
def starts (c : String) : ChatInput → Bool
  | .types value => !isBlank value && !w.rendered.isTyping && w.rendered.channelId = c
  | _ => false

/-- The input sends a message to the channel. -/
def sendsTo (c : String) : ChatInput → Bool
  | .sends => !isBlank w.rendered.message && w.rendered.signedIn && w.rendered.channelId = c
  | _ => false

/-- The input stops the indicator of the channel. -/
def stops (mounted c : String) : ChatInput → Bool
  | .fires => w.stopTyping && mounted = c
  | i => w.sendsTo c i

/-- A keystroke starts the indicator of another channel than the one that the window was mounted
with, and the timer fires before a message is sent there. -/
def Strands (mounted : String) (signedIn : Bool) (is : List ChatInput) : Prop :=
  ∃ as i bs cs c, is = as ++ i :: (bs ++ .fires :: cs) ∧ c ≠ mounted ∧
    (after mounted signedIn as).starts c i = true ∧
    Along (step mounted) (fun w j => w.sendsTo c j = false) (after mounted signedIn (as ++ [i])) bs

variable {w} {mounted c : String} {i : ChatInput} {is : List ChatInput} {signedIn : Bool}

theorem lastTyping_emit {es : List WindowEvent} {w' : ChatWindow}
    (h : w'.emitted = w.emitted ++ es) :
    w'.lastTyping c = ((es.filterMap (typingIn c)).getLast?).or (w.lastTyping c) := by
  rw [lastTyping, h, List.filterMap_append, List.getLast?_append, lastTyping]

theorem lastTyping_step : (w.next mounted i).lastTyping c = some true ↔
    w.starts c i = true ∨ w.lastTyping c = some true ∧ ¬w.stops mounted c i = true := by
  cases i with
  | render channelId signedIn => simp [next, lastTyping, starts, stops, sendsTo]
  | types value =>
    simp only [next, handleTyping, starts, stops, sendsTo]
    split
    · rename_i hstarts
      rw [lastTyping_emit rfl, hstarts]
      by_cases hc : w.rendered.channelId = c <;> simp [setTyping, typingIn, hc]
    · rename_i hsilent
      rw [Bool.not_eq_true] at hsilent
      simp [hsilent, lastTyping]
  | sends =>
    simp only [next, handleSendMessage, starts, stops, sendsTo]
    split
    · rename_i hrefused
      cases hblank : isBlank w.rendered.message <;> cases hsigned : w.rendered.signedIn <;>
        simp_all
    · rename_i hsent
      rw [lastTyping_emit rfl]
      by_cases hc : w.rendered.channelId = c <;> simp_all [setTyping, typingIn]
  | fires =>
    simp only [next, debouncedStopTyping, starts, stops]
    split
    · rename_i hpending
      rw [lastTyping_emit rfl, hpending]
      by_cases hc : mounted = c <;> simp [setTyping, typingIn, hc]
    · rename_i hidle
      simp [hidle]

theorem stops_of_ne (hc : c ≠ mounted) : w.stops mounted c i = w.sendsTo c i := by
  cases i with
  | fires => simp [stops, sendsTo, hc.symm]
  | _ => rfl

/-- Once started, the timer stays pending until it fires. -/
theorem pending_step : (w.next mounted i).stopTyping = true ↔
    (∃ value, i = .types value) ∨ w.stopTyping = true ∧ i ≠ .fires := by
  cases i with
  | render channelId signedIn => simp [next]
  | types value =>
    simp only [next, handleTyping]
    split <;> simp
  | sends =>
    simp only [next, handleSendMessage]
    split <;> simp
  | fires =>
    simp only [next, debouncedStopTyping]
    split <;> simp_all

theorem types_of_starts (h : w.starts c i = true) : ∃ value, i = .types value := by
  cases i with
  | types value => exact ⟨value, rfl⟩
  | _ => exact nomatch h

/-! ### Runs -/

/-- The timer will tell the channel that the window was mounted with. -/
theorem pending_of_typing (h : (after mounted signedIn is).lastTyping mounted = some true) :
    (after mounted signedIn is).stopTyping = true := by
  refine Along.invariant (P := fun _ _ => True)
    (I := fun w : ChatWindow => w.lastTyping mounted = some true → w.stopTyping = true) ?_
    (along_of_forall (fun _ _ => trivial) _ _) nofun h
  intro w i hpending _ hafter
  refine pending_step.mpr ?_
  rcases lastTyping_step.mp hafter with hstarts | ⟨hbefore, hstops⟩
  · exact .inl (types_of_starts hstarts)
  · refine .inr ⟨hpending hbefore, ?_⟩
    rintro rfl
    simp [stops, hpending hbefore] at hstops

/-- Where the indicator of another channel is shown, a keystroke has started it and no message was
sent there after that. -/
theorem typing_iff (hc : c ≠ mounted) :
    (after mounted signedIn is).lastTyping c = some true ↔
      ∃ as i bs, is = as ++ i :: bs ∧ (after mounted signedIn as).starts c i = true ∧
        Along (step mounted) (fun w j => w.sendsTo c j = false)
          (after mounted signedIn (as ++ [i])) bs := by
  simp only [← Bool.not_eq_true]
  refine run_since_iff (fun w : ChatWindow => w.lastTyping c = some true)
    (fun w i => w.starts c i = true) (fun w i => w.sendsTo c i = true) ?_ nofun
  intro w i
  rw [← stops_of_ne hc]
  exact lastTyping_step

/-- Between a keystroke and a state without a pending timer the timer has fired. -/
theorem fires_of_idle {bs : List ChatInput} (hpending : w.stopTyping = true)
    (hidle : (run (step mounted) w bs).stopTyping = false) :
    ∃ bs' cs, bs = bs' ++ .fires :: cs := by
  refine List.append_of_mem (by_contra fun hfires => ?_)
  have hkept : ∀ w : ChatWindow, ∀ i, w.stopTyping = true → i ≠ .fires →
      ((step mounted w i).2).stopTyping = true :=
    fun w i hw hi => pending_step.mpr (.inr ⟨hw, hi⟩)
  have hrun := Along.invariant hkept
    (along_input_iff.mpr fun i hi hfire => hfires (hfire ▸ hi)) hpending
  exact Bool.false_ne_true (hidle.symm.trans hrun)

theorem not_cleared_of_strands (h : Strands mounted signedIn is) :
    ∃ as i bs, is = as ++ i :: bs ∧ ¬((after mounted signedIn as).next mounted i).Cleared := by
  obtain ⟨as, i, bs, cs, c, rfl, hc, hstarts, hunsent⟩ := h
  refine ⟨as ++ i :: bs, .fires, cs, by simp, fun hcleared => ?_⟩
  have htyping := (typing_iff hc).mpr ⟨as, i, bs, rfl, hstarts, hunsent⟩
  refine hcleared ?_ c (lastTyping_step.mpr (.inr ⟨htyping, ?_⟩))
  · rw [← Bool.not_eq_true, pending_step]
    simp
  · rw [stops_of_ne hc]
    exact Bool.false_ne_true

theorem strands_of_not_cleared (h : ¬(after mounted signedIn is).Cleared) :
    Strands mounted signedIn is := by
  simp only [Cleared, not_forall, not_not] at h
  obtain ⟨hidle, c, htyping⟩ := h
  have hc : c ≠ mounted := by
    rintro rfl
    exact Bool.false_ne_true (hidle.symm.trans (pending_of_typing htyping))
  obtain ⟨as, i, bs, rfl, hstarts, hunsent⟩ := (typing_iff hc).mp htyping
  obtain ⟨value, rfl⟩ := types_of_starts hstarts
  have hpending : (after mounted signedIn (as ++ [.types value])).stopTyping = true := by
    rw [after, run_append]
    show ((after mounted signedIn as).next mounted (.types value)).stopTyping = true
    exact pending_step.mpr (.inl ⟨value, rfl⟩)
  rw [List.append_cons, after, run_append] at hidle
  obtain ⟨bs, cs, rfl⟩ := fires_of_idle hpending hidle
  exact ⟨as, _, bs, cs, c, rfl, hc, hstarts, (along_append.mp hunsent).1⟩

theorem Strands.append (h : Strands mounted signedIn is) (js : List ChatInput) :
    Strands mounted signedIn (is ++ js) := by
  obtain ⟨as, i, bs, cs, c, rfl, hrest⟩ := h
  exact ⟨as, i, bs, cs ++ js, c, by simp, hrest⟩

/-- In every state of a run that has no timer pending all indicators are cleared, if and only if no
keystroke strands one. -/
theorem typing_cleared_iff (mounted : String) (signedIn : Bool) (is : List ChatInput) :
    Along (step mounted) (fun w i => (w.next mounted i).Cleared) (mount mounted signedIn) is ↔
      ¬Strands mounted signedIn is := by
  rw [along_iff_forall]
  constructor
  · intro hall hstrands
    obtain ⟨as, i, bs, his, hnot⟩ := not_cleared_of_strands hstrands
    exact hnot (hall as i bs his)
  · rintro hnone as i bs rfl
    by_contra hnot
    refine hnone ?_
    have hrun : after mounted signedIn (as ++ [i]) = (after mounted signedIn as).next mounted i :=
      run_append
    rw [← hrun] at hnot
    rw [List.append_cons]
    exact (strands_of_not_cleared hnot).append bs

/-- A window that was mounted with `general` shows `music` when its user types, and he stops. -/
theorem music_still_typing :
    ¬∀ is, (after "general" true is).Cleared := by
  intro hcleared
  refine hcleared [.render "music" true, .types "hi", .render "music" true, .fires] ?_ "music" ?_
  · decide
  · decide

end ChatWindow

end Client

end VoxLink
