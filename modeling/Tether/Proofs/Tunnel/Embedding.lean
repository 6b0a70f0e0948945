import Tether.Proofs.Tunnel.Users

/-!
# The stack inside a session

A switchboard does nothing to its stack that cannot happen to a stack by itself, and neither do its
users: they only leave requests and empty inboxes. So the stacks of sessions are those of plays, and
what holds after every play holds of them.

* `respects_take`: what a turn is made of;
* `Session.exists_stack_run_eq`: the play in which the stack of a session came about.
-/

namespace Tether.Tunnel

open Call

namespace Stack

/-- The one stack becomes the other one in a play. -/
def Becomes (s t : Stack) : Prop :=
  ∃ acts, t = play acts s

instance : IsPreorder Stack Becomes where
  refl _ := ⟨[], rfl⟩
  trans := by
    rintro s _ _ ⟨acts, rfl⟩ ⟨later, rfl⟩
    exact ⟨acts ++ later, (play_append acts later s).symm⟩

theorem becomes_act (act : Act) : Respects Becomes act.call :=
  fun s => (ends_state act.call s).mono (fun _ _ h => ⟨[act], h⟩) fun _ _ h => ⟨[act], h⟩

end Stack

namespace Switchboard

variable {b c : Switchboard}

/-- What a turn is made of: a relation is respected by a turn if its steps respect it, where what
is done to the stack is what may happen to a stack by itself. -/
theorem respects_take {R : Switchboard → Switchboard → Prop} [IsPreorder Switchboard R]
    {S : Stack → Stack → Prop} [IsPreorder Stack S]
    (hact : ∀ act : Stack.Act, Respects S act.call)
    (hstack : ∀ (b : Switchboard) s, S b.stack s → R b { b with stack := s })
    (hunroute : ∀ port, Respects R (unroute port))
    (hdeliver : ∀ i piece, Respects R (deliver i piece))
    (hopen : ∀ port, Respects R (openStream port))
    (hconclude : ∀ ticket outcome, Respects R (conclude ticket outcome))
    (hserved : ∀ (b : Switchboard) later, R b { b with requests := later })
    (hstopped : ∀ b : Switchboard, R b { b with isRunning := false, requests := [] })
    (turn : Turn) : Respects R (take turn) := by
  have hcall {α : Type} {d : Call TunnelError Stack α} (hd : Respects S d) :
      Respects R (onStack d) :=
    hd.zoom hstack
  have htake (port : UInt16) : Respects R (onStack (Stack.take port)) :=
    hcall (Respects.of_drop (hact (.take port)))
  have hclose (port : UInt16) : Respects R (onStack (Stack.close port)) :=
    hcall (hact (.close port))
  have hdispatch : Respects R dispatch := respects_dispatch htake hclose hunroute hdeliver
  have hhangUp (port : UInt16) : Respects R (hangUp port) := respects_hangUp hclose hunroute port
  have hstop : Respects R stop :=
    respects_stop hclose hunroute (hcall (hact .shutdown)) hstopped
  have hserve (ticket : Nat) (request : Request) : Respects R (serve ticket request) := by
    cases request with
    | connect peerPort draws first =>
      have hconnect : Respects R (onStack (Stack.connect peerPort draws first)) :=
        hcall (Respects.of_drop (hact (.connect peerPort draws first)))
      refine hconnect.attempt.bind fun outcome => ?_
      rcases outcome with e | port
      · exact (hconclude _ _).bind fun _ => hdispatch
      · refine Respects.get.bind fun b => ?_
        split
        · exact (hhangUp port).bind fun _ => hdispatch
        · exact (hopen port).bind fun _ => (hconclude _ _).bind fun _ => hdispatch
    | send port bytes =>
      have hsend : Respects R (onStack do Stack.queue port bytes; Stack.flush) :=
        hcall ((hact (.queue port bytes)).bind fun _ => hact .flush)
      exact hsend.attempt.bind fun _ => (hconclude _ _).bind fun _ => hdispatch
    | capture file =>
      exact (hcall (hact (.startCapture file))).attempt.bind fun _ =>
        (hconclude _ _).bind fun _ => hdispatch
    | close port =>
      refine Respects.get.bind fun b => ?_
      split
      · exact (hhangUp port).bind fun _ => hdispatch
      · exact hdispatch
    | shutdown => exact hstop.bind fun _ => hconclude _ _
  cases turn with
  | atRequests =>
    refine Respects.get.bind fun b => ?_
    split
    · exact Respects.bind (.modify fun b => hserved b _) fun _ => hserve _ _
    · refine Respects.get.bind fun b => ?_
      split
      · exact .throw _
      · exact hstop
  | atTunnel =>
    refine (hcall (hact .process)).attempt.bind fun outcome => ?_
    rcases outcome with e | _
    · refine Respects.get.bind fun b => (Respects.forM fun r _ => ?_).bind fun _ => hstop
      exact (hdeliver _ _).bind fun _ => .pure _
    · exact hdispatch

/-- The stack of the one switchboard becomes that of the other one in a play. -/
abbrev Plays (b c : Switchboard) : Prop :=
  b.stack.Becomes c.stack

instance : IsPreorder Switchboard Plays where
  refl b := refl_of Stack.Becomes b.stack
  trans _ _ _ h h' := trans_of Stack.Becomes h h'

theorem Plays.of_eq (h : c.stack = b.stack) : Plays b c :=
  ⟨[], h⟩

theorem plays_deliver (i : Nat) (piece : Piece) : Respects Plays (deliver i piece) := by
  refine Respects.get.bind fun b => ?_
  cases b.streams[i]? with
  | none => exact .pure _
  | some s =>
    dsimp only
    split
    · exact Respects.bind (.modify fun _ => .of_eq rfl) fun _ => .pure _
    · exact .pure _

theorem plays_openStream (port : UInt16) : Respects Plays (openStream port) := by
  intro b
  rw [openStream, ends_bind, ends_get, ends_bind, ends_set, ends_pure]
  exact .of_eq rfl

/-- What a switchboard does to its stack is a play. -/
theorem plays_take (turn : Turn) : Respects Plays (take turn) :=
  respects_take (R := Plays) Stack.becomes_act (fun _ _ h => h) (fun _ => .modify fun _ => .of_eq rfl)
    plays_deliver plays_openStream (fun _ _ => .modify fun _ => .of_eq rfl) (fun _ _ => .of_eq rfl)
    (fun _ => .of_eq rfl) turn

end Switchboard

namespace Session

open Switchboard

theorem plays_step (w : Session) (act : Act) : Plays w.board (w.step act).board := by
  cases act with
  | turn t =>
    have hturn : Respects Plays (Act.turn t).call := by
      refine Respects.get.bind fun b => ?_
      split
      · exact plays_take t
      · exact .pure _
    exact hturn.state w.board
  | read i most hm =>
    cases hs : w.board.streams[i]? with
    | none => exact .of_eq (congrArg Switchboard.stack (state_read_none hs hm))
    | some s =>
      have hb : (w.step (.read i most hm)).board =
          { w.board with streams := w.board.streams.set i (s.reading most).1 } :=
        state_read hs hm
      rw [hb]
      exact .of_eq rfl
  | world unread ending allowance => exact ⟨[.world unread ending allowance], rfl⟩
  | tick clock => exact ⟨[.tick clock], rfl⟩
  | _ => exact .of_eq (asks_step w rfl).stack

theorem stack_run_nil (e : Tunnel.Ends) (before : List Stack.Act) :
    (run e before []).board.stack = Stack.play before (Stack.ofEnds e) :=
  rfl

/-- The stack of a session is a stack that is played by itself. -/
theorem exists_stack_run_eq (e : Tunnel.Ends) (before : List Stack.Act) (acts : List Act) :
    ∃ whole, (run e before acts).board.stack = Stack.play whole (Stack.ofEnds e) := by
  suffices h : ∀ w : Session, Plays w.board (w.play acts).board by
    obtain ⟨later, hlater⟩ := h (start (Stack.play before (Stack.ofEnds e)))
    exact ⟨before ++ later, hlater.trans (Stack.play_append before later _).symm⟩
  induction acts with
  | nil => exact fun w => refl_of Plays w.board
  | cons act acts ih => exact fun w => trans_of Plays (w.plays_step act) (ih _)

end Session

end Tether.Tunnel
