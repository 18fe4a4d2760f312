import EventClient.Proofs.Client.Slots

/-!
Runs of a client, taken apart into moves that nothing else comes between. A dispatch is the routing
of its notification followed by the moves of the callback that it invokes, and a loop is a sequence
of such dispatches, so a run is a sequence of moves however deep its callbacks re-enter the client.
-/
namespace EventClient.Client

variable {T κ : Type}

/-- What a program does with a client under one lock. -/
inductive Act (T κ : Type) where
  | acquire
  | release
  | enableTracing (patterns : List String)
  | send (c : ContextId) (event payload : String) (target : Target) (callback : κ)
      (userData : Option String)
  | list (c : ContextId) (scope : Scope) (callback : κ) (userData : Option String)
  | subscribe (c : ContextId) (names : List String)
  | editSubscriptions (c : ContextId) (clear : Bool) (erased inserted : List String)
  | renewSubscriptions (c : ContextId)
  | bridgeSignals (c : ContextId)
  | setEventHandler (c : ContextId) (handler : Option (Handler κ))
  | setStatusHandler (c : ContextId) (handler : Option (Handler κ))
  | lease (c : ContextId)
  | giveBack (c : ContextId)
  | requestStop (c : ContextId)
  | forgetStop (c : ContextId)
  /-- Take the oldest notification off a channel, if there is one. -/
  | takeNext (c : ContextId)
  /-- The part of a dispatch that comes before the callback. -/
  | route (c : ContextId) (n : Notification)
  /-- Change what belongs neither to the transport nor to a context nor to the lifecycle's choice of
  one: handles, started loops, operations under way, and what was noted. -/
  | keepBooks (books : Client T κ)

/-- What happens to a client: its program acts, a notification is put on a channel, or the transport
changes by itself. -/
inductive Move (T κ : Type) where
  | program (act : Act T κ)
  | deliver (c : ContextId) (n : Notification)
  | transport (change : T → T)

/-- Other books for the same transport, lifecycle and contexts. -/
def withBooks (s books : Client T κ) : Client T κ :=
  { books with transport := s.transport, current := s.current, slots := s.slots }

/-- A run starts with a transport and nothing else. -/
def start (t : T) : Client T κ := { transport := t }

variable [Transport T]

def Act.apply (s : Client T κ) : Act T κ → Client T κ
  | .acquire => s.acquire.2
  | .release => s.release.2
  | .enableTracing patterns => (s.enableTracing patterns).2
  | .send c event payload target callback userData =>
    (s.send c event payload target callback userData).2
  | .list c scope callback userData => (s.list c scope callback userData).2
  | .subscribe c names => (s.subscribe c names).2
  | .editSubscriptions c clear erased inserted => s.editSubscriptions c clear erased inserted
  | .renewSubscriptions c => (s.renewSubscriptions c).2
  | .bridgeSignals c => (s.bridgeSignals c).2
  | .setEventHandler c handler => s.setEventHandler c handler
  | .setStatusHandler c handler => s.setStatusHandler c handler
  | .lease c => (s.lease c).2
  | .giveBack c => s.giveBack c
  | .requestStop c => s.requestStop c
  | .forgetStop c => s.updateSlot c fun slot => { slot with stopRequested := false }
  | .takeNext c => ((s.nextNotification? c).map (·.2)).getD s
  | .route c n => (s.route c n).2
  | .keepBooks books => s.withBooks books

def Move.apply (s : Client T κ) : Move T κ → Client T κ
  | .program act => act.apply s
  | .deliver c n => (s.deliver c n).2
  | .transport change => { s with transport := change s.transport }

def after (s : Client T κ) (moves : List (Move T κ)) : Client T κ := moves.foldl Move.apply s

/-- Each move with the client that it finds. -/
def history (s : Client T κ) : List (Move T κ) → List (Client T κ × Move T κ)
  | [] => []
  | move :: moves => (s, move) :: history (move.apply s) moves

@[simp] theorem after_nil (s : Client T κ) : s.after [] = s := rfl

@[simp] theorem after_cons (s : Client T κ) (move : Move T κ) (moves : List (Move T κ)) :
    s.after (move :: moves) = (move.apply s).after moves := rfl

theorem after_append (s : Client T κ) (first second : List (Move T κ)) :
    s.after (first ++ second) = (s.after first).after second :=
  List.foldl_append

theorem history_append (s : Client T κ) (first second : List (Move T κ)) :
    s.history (first ++ second) = s.history first ++ (s.after first).history second := by
  induction first generalizing s with
  | nil => rfl
  | cons move moves ih => simp only [List.cons_append, history, ih, after_cons]

end EventClient.Client
