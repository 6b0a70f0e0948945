import Tether.Proofs.Tunnel.Flushing

/-!
# Plays

A *play* of a stack is any sequence of calls of its owner, between which the world may deliver
bytes through the tunnel, end it, or limit what it takes. No call has to succeed: after one that
fails the play goes on in the state that it left.

* `kept_play`: the journal is kept throughout;
* `sent_play`: what went into the tunnel are the packets of the segments that were sent;
* `takenOf_play`: what was taken from a connection, by the ledger, are the bytes that the calls
  gave.
-/

namespace Tether.Tunnel

open Net

/-- The two ends of a tunnel that is silent, for examples. -/
def Ends.sample : Ends where
  transport := { unread := [], ending := .silent }
  host := .v4 ⟨0x0a000001⟩
  device := .v4 ⟨0x0a000002⟩
  mtu := 1500

/-- The packet in which the device sends a segment. -/
def Ends.packet (e : Ends) (x : Segment) : Bytes :=
  ((x.toBytes e.device e.host).bind (wrap e.device e.host protocolTcp)).toOption.getD []

namespace Stack

open Call

/-- What may happen to a stack. -/
inductive Act where
  | connect (peerPort : UInt16) (draws : List Draw) (first : UInt32)
  | queue (port : UInt16) (bytes : Bytes)
  | flush
  | fill
  | handleBuffered
  | process
  | take (port : UInt16)
  | status (port : UInt16)
  | close (port : UInt16)
  | shutdown
  | startCapture (file : Except TunnelError Unit)
  /-- The world decides what comes out of the tunnel, what is met once that has been read, and
  how much more goes in. -/
  | world (unread : Bytes) (ending : Ending) (allowance : Option (Nat × Fault))
  | tick (clock : UInt64)

/-- An act as a call. -/
def Act.call : Act → Call TunnelError Stack Unit
  | connect peerPort draws first => do let _ ← Stack.connect peerPort draws first
  | queue port bytes => Stack.queue port bytes
  | flush => Stack.flush
  | fill => Stack.fill
  | handleBuffered => Stack.handleBuffered
  | process => Stack.process
  | take port => do let _ ← Stack.take port
  | status port => do let _ ← Stack.status port
  | close port => Stack.close port
  | shutdown => Stack.shutdown
  | startCapture file => Stack.startCapture file
  | world unread ending allowance =>
    modify fun s => { s with transport := { s.transport with unread, ending, allowance } }
  | tick clock => modify fun s => { s with clock }

/-- The bytes that the owner is given by an act, as far as they are of the connection with the
`n`-th account. -/
def Act.given (n : Nat) (s : Stack) : Act → Bytes
  | take port =>
    if s.ledger.holder port = some n then ((Stack.take port).result s).toOption.getD [] else []
  | _ => []

/-- The bytes of this connection that the owner is given by some acts, in order. -/
def given (n : Nat) : List Act → Stack → Bytes
  | [], _ => []
  | act :: acts, s => act.given n s ++ given n acts (act.call.state s)

/-- The stack after some acts. -/
def play (acts : List Act) (s : Stack) : Stack :=
  acts.foldl (fun s act => act.call.state s) s

theorem play_append (acts later : List Act) (s : Stack) :
    play (acts ++ later) s = play later (play acts s) :=
  List.foldl_append ..

theorem keeps_act (act : Act) : Respects Keeps act.call := by
  cases act with
  | connect peerPort draws first => exact (keeps_connect peerPort draws first).bind fun _ => .pure _
  | queue port bytes => exact keeps_queue port bytes
  | flush => exact keeps_flush
  | fill => exact keeps_fill
  | handleBuffered => exact keeps_handleBuffered
  | process => exact keeps_process
  | take port => exact (keeps_take port).bind fun _ => .pure _
  | status port => exact ((keeps_linkAt port).bind fun _ => .pure _).bind fun _ => .pure _
  | close port => exact keeps_close port
  | shutdown => exact keeps_shutdown
  | startCapture file =>
    exact (Respects.ofExcept _).bind fun _ => fun _ h => h.of_eq rfl rfl rfl
  | world unread ending allowance => exact fun _ h => h.of_eq rfl rfl rfl
  | tick clock => exact fun _ h => h.of_eq rfl rfl rfl

/-- An act adds events to the journal. Only what takes bytes makes events that do. -/
theorem grows_act_taken (act : Act) :
    Respects (Grows fun e => e.isTaken = true → ∃ port, act = .take port) act.call := by
  have traffic {e : Event} (he : e.isTraffic = true) (h : e.isTaken = true) :
      ∃ port, act = .take port := by
    rw [Event.isTaken_of_isTraffic he] at h
    cases h
  cases act with
  | connect peerPort draws first =>
    refine (respects_of_grows (grows_connect peerPort draws first) ?_).bind fun _ => .pure _
    rintro e (he | ⟨port, rfl | rfl⟩)
    · exact traffic he
    · exact nofun
    · exact nofun
  | queue port bytes =>
    refine respects_of_grows (grows_queue port bytes) ?_
    rintro _ rfl
    exact nofun
  | flush =>
    have post {e : Event} {s : Stack}
        (he : ∃ l, (e.port, l) ∈ s.links ∧ l.queued ≠ [] ∧ e.isPost = true) :
        e.isTaken = true → ∃ port, Act.flush = .take port := by
      obtain ⟨-, -, -, he⟩ := he
      exact traffic (Event.isTraffic_of_isPost he)
    exact fun s => (grows_flush s).mono (fun _ _ h => h.mono fun _ => post) fun _ _ h =>
      h.mono fun _ => post
  | fill => exact grows_fill
  | handleBuffered => exact respects_of_grows grows_handleBuffered fun _ => traffic
  | process => exact respects_of_grows grows_process fun _ => traffic
  | take port =>
    exact (respects_of_grows (grows_take port) fun _ _ _ => ⟨port, rfl⟩).bind fun _ => .pure _
  | status port => exact ((grows_linkAt port).bind fun _ => .pure _).bind fun _ => .pure _
  | close port =>
    refine respects_of_grows (grows_close port) ?_
    rintro e (he | rfl)
    · exact traffic (Event.isTraffic_of_isPost he.1)
    · exact nofun
  | shutdown =>
    refine respects_of_grows grows_shutdown ?_
    rintro _ ⟨_, rfl⟩
    exact nofun
  | startCapture file => exact grows_startCapture file
  | world unread ending allowance => exact fun _ => .of_idle rfl rfl rfl rfl rfl
  | tick clock => exact fun _ => .of_idle rfl rfl rfl rfl rfl

theorem grows_act (act : Act) : Respects (Grows fun _ => True) act.call :=
  respects_of_grows (grows_act_taken act) fun _ _ => trivial

theorem kept_ofEnds (e : Tunnel.Ends) : (ofEnds e).Kept where
  valid := trivial
  sized := Nat.lt_of_lt_of_le (by decide) (Nat.le_max_left 64 _)
  nodup := List.nodup_nil
  agrees _ := .none

theorem Kept.play {s : Stack} (h : s.Kept) (acts : List Act) : (play acts s).Kept := by
  induction acts generalizing s with
  | nil => exact h
  | cons act acts ih => exact ih ((keeps_act act).state s h)

/-- The table and the journal of a stack say the same after any play. -/
theorem kept_play (e : Tunnel.Ends) (acts : List Act) : (play acts (ofEnds e)).Kept :=
  (kept_ofEnds e).play acts

theorem grows_play (acts : List Act) (s : Stack) : Grows (fun _ => True) s (play acts s) := by
  induction acts generalizing s with
  | nil => exact .refl s
  | cons act acts ih => exact ((grows_act act).state s).trans (ih _)

theorem segmentSize_play (e : Tunnel.Ends) (acts : List Act) :
    (play acts (ofEnds e)).segmentSize = max 64 (e.mtu - headersLength e.host) :=
  (grows_play acts (ofEnds e)).segmentSize

/-- As long as no segment is lost, what the tunnel took are the packets with the segments that
were sent, in that order. -/
theorem sent_play {e : Tunnel.Ends} {acts : List Act}
    (h : (play acts (ofEnds e)).journal.Lossless) :
    ∃ packets, List.Forall₂ (fun x p => (play acts (ofEnds e)).packetOf x = .ok p)
        (play acts (ofEnds e)).journal.posts packets ∧
      (play acts (ofEnds e)).transport.sent = e.transport.sent ++ packets.flatten := by
  have hg := grows_play acts (ofEnds e)
  obtain ⟨es, hj, -, hw⟩ := hg.events
  have hes : (play acts (ofEnds e)).journal = es := hj.trans (List.append_nil es)
  rw [hes] at h ⊢
  rw [packetOf_congr hg.host hg.device]
  exact hw h

/-! ## What is taken -/

/-- The bytes that are taken are entered into the account of the port. -/
theorem takenOf_take {s : Stack} (h : s.Kept) (port : UInt16) (n : Nat) :
    ((take port).state s).ledger.takenOf n = s.ledger.takenOf n ++ (Act.take port).given n s := by
  rw [Act.given]
  cases hl : s.links.get? port with
  | none =>
    rw [Call.result, Call.state, (ends_take_none hl).eq_error, Except.toOption, Option.getD_none,
      ite_self]
    exact (List.append_nil _).symm
  | some l =>
    refine Call.Ends.of_result (c := Stack.take port) (P := fun r t => t.ledger.takenOf n =
      s.ledger.takenOf n ++ if s.ledger.holder port = some n then r.toOption.getD [] else []) ?_
    refine (ends_take h hl).mono (fun bytes t ht => ?_) fun _ _ => False.elim
    obtain ⟨rfl, -, hj, -⟩ := ht
    rw [ledger, hj, Ledger.ofJournal]
    exact Ledger.takenOf_note_taken (Ledger.sound_ofJournal _) port _ n

/-- What an act gives of a connection is entered into its account. -/
theorem takenOf_act {s : Stack} (h : s.Kept) (act : Act) (n : Nat) :
    (act.call.state s).ledger.takenOf n = s.ledger.takenOf n ++ act.given n s := by
  cases act with
  | take port =>
    rw [Act.call, Call.state_drop]
    exact takenOf_take h port n
  | _ =>
    -- Whatever else is called gives no bytes, and its events take none.
    obtain ⟨es, hj, hes, -⟩ := ((grows_act_taken _).state s).events
    refine Eq.trans ?_ (List.append_nil (s.ledger.takenOf n)).symm
    rw [ledger, hj, ledger]
    refine Ledger.takenOf_append (fun e he => Bool.eq_false_iff.2 fun h => ?_) n
    obtain ⟨_, htake⟩ := hes e he h
    cases htake

/-- What was taken from a connection is what the calls of a play gave of it. -/
theorem takenOf_play {s : Stack} (h : s.Kept) (acts : List Act) (n : Nat) :
    (play acts s).ledger.takenOf n = s.ledger.takenOf n ++ given n acts s := by
  induction acts generalizing s with
  | nil => exact (List.append_nil _).symm
  | cons act acts ih =>
    rw [given, ← List.append_assoc, ← takenOf_act h act n]
    exact ih ((keeps_act act).state s h)

end Stack

end Tether.Tunnel
