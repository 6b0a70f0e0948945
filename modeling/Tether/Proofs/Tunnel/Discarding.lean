import Tether.Proofs.Tunnel.Failure
import Tether.Proofs.Tunnel.Tales

/-!
# Bytes that are no packets

A stack throws away what it has read as soon as it starts no packet, and fails with `discarded`.
The bytes are gone: nothing that is read later says that they were there. Two turns process packets.
One reads from the tunnel; there the failure ends the switchboard, and every stream is told. The
other makes a connection; there only the connection fails, and the streams go on waiting for what
was thrown away.

* `Stack.Cuts`, `Stack.Discards`: what becomes of the bytes of the tunnel, one or the other;
* `Stack.Sifts`: a call that cuts off packets, or discards bytes and fails for that reason;
* `ends_listen_sifts`, `ends_serveNext_sifts`: the two kinds of turn;
* `Session.told_of_discards`: who learns of discarded bytes, in any session.
-/

namespace Tether.Tunnel

open Net Call

/-- How a stack fails that has read what starts no packet. -/
def discarded : TunnelError :=
  ⟨.invalidData, "tunnel is not carrying IP packets"⟩

namespace Stack

variable {s t u : Stack} {α β : Type} {c : Call TunnelError Stack α}

/-! ## Calls that read nothing -/

/-- Nothing has come out of the tunnel, or was cut into packets. -/
def SameInput (s t : Stack) : Prop :=
  t.input = s.input

instance : IsPreorder Stack SameInput where
  refl _ := rfl
  trans _ _ _ h h' := Eq.trans h' h

theorem SameInput.incoming (h : SameInput s t) : t.incoming = s.incoming :=
  congrArg Input.incoming h

theorem SameInput.stream (h : SameInput s t) : t.stream = s.stream :=
  congrArg₂ (· ++ ·) h.incoming (congrArg Input.unread h)

theorem Blind.sameInput (h : Blind c) : Respects SameInput c := by
  intro s
  have hstate : SameInput s (c.state s) := h.input s
  exact (ends_state c s).mono (fun _ _ ht => ht ▸ hstate) fun _ _ ht => ht ▸ hstate

theorem sameInput_forget (port : UInt16) : Respects SameInput (forget port) :=
  Respects.bind (fun _ => rfl) fun _ => (blind_record _).sameInput

theorem sameInput_queue (port : UInt16) (bytes : Bytes) :
    Respects SameInput (queue port bytes) := by
  refine (blind_linkAt port).sameInput.bind fun l => ?_
  cases l.status with
  | connecting | ended => exact .fail _
  | connected => exact (blind_setLink _ _).sameInput.bind fun _ => (blind_record _).sameInput

theorem sameInput_flushLink (port : UInt16) : Respects SameInput (flushLink port) := by
  have hpiece (piece : Bytes) : Respects SameInput (sendPiece port piece) :=
    (blind_transmit _ _ _).sameInput.bind fun _ => (blind_linkAt _).sameInput.bind fun _ =>
      (blind_setLink _ _).sameInput
  exact (blind_linkAt port).sameInput.bind fun _ => (blind_setLink _ _).sameInput.bind fun _ =>
    Respects.get.bind fun _ => .forM fun piece _ => hpiece piece

theorem sameInput_flush : Respects SameInput flush :=
  Respects.get.bind fun _ => .forM fun port _ => sameInput_flushLink port

theorem sameInput_take (port : UInt16) : Respects SameInput (take port) :=
  (blind_linkAt port).sameInput.bind fun _ => (blind_setLink _ _).sameInput.bind fun _ =>
    (blind_record _).sameInput.bind fun _ => .pure _

theorem sameInput_close (port : UInt16) : Respects SameInput (close port) := by
  refine (blind_linkAt port).sameInput.bind fun l => ?_
  refine Respects.bind (Respects.attempt ?_) fun outcome =>
    (sameInput_forget port).bind fun _ => .ofExcept _
  split
  · exact (sameInput_flushLink port).bind fun _ => (blind_transmit _ _ _).sameInput
  · exact .pure _

theorem sameInput_shutdown : Respects SameInput shutdown := by
  refine Respects.bind (fun _ => rfl) fun _ s => ?_
  rw [onTransport, ends_zoom, Call.Ends, Transport.shutdown]
  cases s.transport.shutFault with
  | none | some fault => rfl

theorem sameInput_startCapture (file : Except TunnelError Unit) :
    Respects SameInput (startCapture file) :=
  (Respects.ofExcept file).bind fun _ _ => rfl

/-! ## Bytes that are cut into packets, and bytes that are not -/

/-- What has come out of the tunnel from `s` to `t` was cut into packets, or is still to be. -/
def Cuts (s t : Stack) : Prop :=
  ∃ whole, Packets.Sound whole ∧ s.stream = Packets.bytes whole ++ t.stream

/-- Behind some packets there was something that starts no packet, and it is gone, with all that had
been read behind it. -/
structure Discards (s t : Stack) : Prop where
  incoming : t.incoming = []
  stream : ∃ whole bad, Packets.Sound whole ∧ cutPacket bad = .invalid ∧
    s.stream = Packets.bytes whole ++ bad ++ t.stream

/-- It is one or the other. -/
theorem Cuts.not_discards (h : Cuts s t) : ¬ Discards s t := by
  rintro ⟨-, whole, bad, hwhole, hbad, hstream⟩
  obtain ⟨ps, hps, hcuts⟩ := h
  rw [hcuts] at hstream
  exact Packets.bytes_ne_append hps hwhole hbad (List.append_cancel_right hstream)

/-- Where there is nothing but bytes that start no packet. -/
theorem Discards.of_stream (bad : Bytes) (hbad : cutPacket bad = .invalid) (hs : s.stream = bad)
    (hincoming : t.incoming = []) (ht : t.stream = []) : Discards s t := by
  refine ⟨hincoming, [], bad, fun _ hx => absurd hx List.not_mem_nil, hbad, ?_⟩
  rw [hs, ht, List.append_nil]
  rfl

theorem SameInput.cuts (h : SameInput s t) : Cuts s t :=
  ⟨[], fun _ hx => absurd hx List.not_mem_nil, h.stream.symm⟩

theorem Cuts.trans (h : Cuts s t) (h' : Cuts t u) : Cuts s u := by
  obtain ⟨ps, hps, hs⟩ := h
  obtain ⟨qs, hqs, ht⟩ := h'
  refine ⟨ps ++ qs, fun x hx => (List.mem_append.1 hx).elim (hps x) (hqs x), ?_⟩
  rw [hs, ht, Packets.bytes_append, List.append_assoc]

theorem Cuts.discards (h : Cuts s t) (h' : Discards t u) : Discards s u := by
  obtain ⟨ps, hps, hs⟩ := h
  obtain ⟨hincoming, qs, bad, hqs, hbad, ht⟩ := h'
  refine ⟨hincoming, ps ++ qs, bad, fun x hx => (List.mem_append.1 hx).elim (hps x) (hqs x), hbad,
    ?_⟩
  rw [hs, ht, Packets.bytes_append, List.append_assoc, List.append_assoc, List.append_assoc]

theorem Discards.sameInput (h : Discards s t) (h' : SameInput t u) : Discards s u := by
  obtain ⟨whole, bad, hwhole, hbad, hstream⟩ := h.stream
  exact ⟨h'.incoming.trans h.incoming, whole, bad, hwhole, hbad, h'.stream ▸ hstream⟩

/-- The call cuts off packets, unless it discards bytes, and then that is why it fails. -/
def Sifts (c : Call TunnelError Stack α) : Prop :=
  ∀ s, c.Ends s (fun _ => Cuts s) fun h t => Cuts s t ∨ h = .failed discarded ∧ Discards s t

theorem Sifts.of_sameInput (h : Respects SameInput c) : Sifts c :=
  fun s => (h s).mono (fun _ _ ht => ht.cuts) fun _ _ ht => .inl ht.cuts

/-- A call that starts once packets have been cut off. -/
theorem Sifts.after (h : Sifts c) (hs : Cuts s t) :
    c.Ends t (fun _ => Cuts s) fun h u => Cuts s u ∨ h = .failed discarded ∧ Discards s u :=
  (h t).mono (fun _ _ => hs.trans) fun _ _ hu => hu.imp hs.trans fun hu => ⟨hu.1, hs.discards hu.2⟩

theorem Sifts.bind {f : α → Call TunnelError Stack β} (hc : Sifts c) (hf : ∀ a, Sifts (f a)) :
    Sifts (c >>= f) := by
  intro s
  rw [ends_bind]
  exact (hc s).mono (fun a _ ht => (hf a).after ht) fun _ _ ht => ht

theorem sifts_fill : Sifts fill := by
  intro s
  refine (ends_fill s).mono (fun _ t ht => ?_) fun _ t ht => ?_
  · -- What was read has moved to the other bytes that are still to be cut.
    obtain ⟨-, rfl⟩ := ht
    refine ⟨[], fun _ hx => absurd hx List.not_mem_nil, ?_⟩
    simp only [stream, Transport.step, Packets.bytes, List.flatMap_nil, List.nil_append,
      List.append_assoc, List.take_append_drop]
  · obtain ⟨-, rfl, -⟩ := ht
    exact .inl (SameInput.cuts rfl)

theorem sifts_handlePackets (fuel : Nat) : Sifts (handlePackets fuel) := by
  induction fuel with
  | zero => exact .of_sameInput (.pure _)
  | succ fuel ih =>
    intro s
    rw [handlePackets, ends_bind, ends_get]
    dsimp only
    cases hcut : cutPacket s.incoming with
    | incomplete => exact SameInput.cuts rfl
    | invalid =>
      rw [ends_bind, ends_modify, ends_fail]
      exact .inr ⟨rfl, rfl, [], s.incoming, fun _ hx => absurd hx List.not_mem_nil, hcut, rfl⟩
    | packet p n =>
      have hsplit := List.take_append_drop n s.incoming
      have hlength : (s.incoming.take n).length = n :=
        List.length_take_of_le (length_of_cutPacket hcut).2
      have hpacket : IsPacket (s.incoming.take n) p := by
        refine isPacket_of_cut (t := s.incoming.drop n) ?_
        rw [hsplit, hcut, hlength]
      -- One packet is off, and what is done with it does not touch the rest.
      have hfirst : Cuts s { s with incoming := s.incoming.drop n } := by
        refine ⟨[(s.incoming.take n, p)], fun x hx => List.mem_singleton.1 hx ▸ hpacket, ?_⟩
        simp only [stream, Packets.bytes, List.flatMap_cons, List.flatMap_nil, List.append_nil]
        rw [← List.append_assoc, hsplit]
      have hrest : Sifts (do note (s.incoming.take n); acceptPacket p; handlePackets fuel) :=
        (Sifts.of_sameInput (blind_note _).sameInput).bind fun _ =>
          (Sifts.of_sameInput (blind_acceptPacket p).sameInput).bind fun _ => ih
      rw [ends_bind, ends_modify]
      exact hrest.after hfirst

theorem sifts_process : Sifts process :=
  sifts_fill.bind fun _ => (Sifts.of_sameInput .get).bind fun _ => sifts_handlePackets _

theorem sifts_awaitAnswer (port : UInt16) (fuel : Nat) : Sifts (awaitAnswer port fuel) := by
  induction fuel with
  | zero => exact .of_sameInput (.throw _)
  | succ fuel ih =>
    refine (Sifts.of_sameInput (blind_linkAt port).sameInput).bind fun l => ?_
    cases l.status with
    | connecting => exact sifts_process.bind fun _ => ih
    | connected => exact .of_sameInput (.pure _)
    | ended fault => exact .of_sameInput (.fail _)

theorem sifts_greet (port : UInt16) : Sifts (greet port) := by
  refine (Sifts.of_sameInput (blind_transmit _ _ _).sameInput).bind fun _ s => ?_
  rw [ends_within, ends_bind, ends_get]
  refine (sifts_awaitAnswer port _ s).mono (fun _ _ => id) fun h t ht => ?_
  cases h with
  | failed e => exact ht
  | waiting => exact .inl (ht.resolve_right (by rintro ⟨⟨⟩, -⟩))

/-- A connection that is given up is forgotten, which does not change why. -/
theorem sifts_greet_or_forget (port : UInt16) :
    Sifts (do
      let answer : Except TunnelError Unit ← Call.attempt (greet port)
      match answer with
      | .ok () => return port
      | .error e =>
        forget port
        Call.fail e) := by
  intro s
  rw [ends_bind, ends_attempt]
  refine (sifts_greet port s).mono (fun _ _ => id) fun h t ht => ?_
  cases h with
  | waiting => exact .inl (ht.resolve_right (by rintro ⟨⟨⟩, -⟩))
  | failed e =>
    dsimp only
    rw [ends_bind, forget, ends_bind, ends_modify, record, ends_modify, ends_fail]
    exact ht.imp (fun ht => ht.trans (SameInput.cuts rfl)) fun ht => ⟨ht.1, ht.2.sameInput rfl⟩

theorem sifts_connect (peerPort : UInt16) (draws : List Draw) (first : UInt32) :
    Sifts (connect peerPort draws first) := by
  intro s
  rw [connect, ends_bind, ends_get]
  cases freePort? s.links draws with
  | none => exact .inl (SameInput.cuts rfl)
  | some port =>
    have hinsert : Respects SameInput (modify fun s : Stack =>
        { s with links := s.links.insert port { peerPort, sequence := first } } :
        Call TunnelError Stack PUnit) := fun _ => rfl
    exact (Sifts.of_sameInput hinsert).bind (fun _ =>
      (Sifts.of_sameInput (blind_record _).sameInput).bind fun _ => sifts_greet_or_forget port) s

end Stack

/-! ## Turns -/

namespace Switchboard

variable {b : Switchboard}

/-- Nothing has come out of the tunnel, or was cut into packets. -/
def SameInput (b c : Switchboard) : Prop :=
  b.stack.SameInput c.stack

instance : IsPreorder Switchboard SameInput where
  refl b := refl_of Stack.SameInput b.stack
  trans _ _ _ := trans_of Stack.SameInput

theorem sameInput_onStack {α : Type} {d : Call TunnelError Stack α}
    (h : Respects Stack.SameInput d) : Respects SameInput (onStack d) :=
  h.zoom fun _ _ => id

theorem sameInput_unroute (port : UInt16) : Respects SameInput (unroute port) :=
  fun _ => rfl

theorem sameInput_deliver (i : Nat) (piece : Piece) : Respects SameInput (deliver i piece) :=
  fun b => (ends_deliver_stack i piece b).mono
    (fun _ _ hc => congrArg Stack.input hc.1) fun _ _ => False.elim

theorem sameInput_hangUp (port : UInt16) : Respects SameInput (hangUp port) :=
  respects_hangUp (fun _ => sameInput_onStack (Stack.sameInput_close _)) sameInput_unroute port

theorem sameInput_dispatch : Respects SameInput dispatch :=
  respects_dispatch (fun port => sameInput_onStack (Stack.sameInput_take port))
    (fun port => sameInput_onStack (Stack.sameInput_close port)) sameInput_unroute sameInput_deliver

theorem sameInput_stop : Respects SameInput stop :=
  respects_stop (fun port => sameInput_onStack (Stack.sameInput_close port)) sameInput_unroute
    (sameInput_onStack Stack.sameInput_shutdown) fun _ => rfl

theorem sameInput_conclude (ticket : Nat) (outcome : Except TunnelError Nat) :
    Respects SameInput (conclude ticket outcome) :=
  fun _ => rfl

/-- What is left of a turn once the stack has read does not change what came of it. -/
theorem cuts_of_sameInput {c : Call TunnelError Switchboard Unit} {s : Stack}
    (hc : Respects SameInput c) (h : s.Cuts b.stack) :
    c.Ends b (fun _ c => s.Cuts c.stack) (fun _ c => s.Cuts c.stack) :=
  (hc b).mono (fun _ _ hd => h.trans hd.cuts) fun _ _ hd => h.trans hd.cuts

/-- A turn at the tunnel cuts off packets, unless the tunnel fails with bytes that are discarded. -/
theorem ends_listen_sifts (b : Switchboard) :
    listen.Ends b
      (fun _ c => b.stack.Cuts c.stack ∨ ∃ t, Stack.process b.stack = .error (.failed discarded) t)
      (fun _ c => b.stack.Cuts c.stack ∨
        ∃ t, Stack.process b.stack = .error (.failed discarded) t) := by
  rw [listen, onStack, ends_bind, ends_attempt, ends_zoom]
  refine ((Stack.sifts_process b.stack).and (ends_self _ _)).mono (fun _ t ht => ?_)
    fun h t ht => ?_
  · exact (cuts_of_sameInput (b := { b with stack := t }) sameInput_dispatch ht.1).mono
      (fun _ _ => .inl) fun _ _ => .inl
  · obtain ⟨ht, hself⟩ := ht
    cases h with
    | waiting => exact .inl (ht.resolve_right (by rintro ⟨⟨⟩, -⟩))
    | failed e =>
      have htell : Respects SameInput (do
          (← get).routes.forM fun route => do
            let _ ← deliver route.2 (.error e)
          stop) :=
        Respects.get.bind fun _ => (Respects.forM fun route _ =>
          (sameInput_deliver _ _).bind fun _ => .pure _).bind fun _ => sameInput_stop
      rcases ht with ht | ⟨he, -⟩
      · exact (cuts_of_sameInput (b := { b with stack := t }) htell ht).mono
          (fun _ _ => .inl) fun _ _ => .inl
      · -- The tunnel has failed, whatever is done about it.
        have hfails : ∃ t, Stack.process b.stack = .error (.failed discarded) t :=
          ⟨t, hself.trans (by rw [he])⟩
        exact (Respects.top _ _).mono (fun _ _ _ => .inr hfails) fun _ _ _ => .inr hfails

/-- The oldest request was one for a connection, and it failed because bytes were discarded. That
was all that came of it. -/
def Blames (b c : Switchboard) : Prop :=
  ∃ ticket peerPort draws first later,
    b.requests = (ticket, .connect peerPort draws first) :: later ∧
      c.outcomes = b.outcomes ++ [(ticket, .error discarded)] ∧ c.isRunning = b.isRunning

/-- Only a request for a connection reads from the tunnel. -/
theorem sameInput_serve {request : Request} (ticket : Nat)
    (h : ∀ peerPort draws first, request ≠ .connect peerPort draws first) :
    Respects SameInput (serve ticket request) := by
  cases request with
  | connect peerPort draws first => exact absurd rfl (h peerPort draws first)
  | send port bytes =>
    have hsend : Respects Stack.SameInput (do Stack.queue port bytes; Stack.flush) :=
      (Stack.sameInput_queue port bytes).bind fun _ => Stack.sameInput_flush
    exact (sameInput_onStack hsend).attempt.bind fun _ =>
      (sameInput_conclude _ _).bind fun _ => sameInput_dispatch
  | close port =>
    refine Respects.get.bind fun b => ?_
    split
    · exact (sameInput_hangUp port).bind fun _ => sameInput_dispatch
    · exact sameInput_dispatch
  | capture file =>
    exact (sameInput_onStack (Stack.sameInput_startCapture file)).attempt.bind fun _ =>
      (sameInput_conclude _ _).bind fun _ => sameInput_dispatch
  | shutdown => exact sameInput_stop.bind fun _ => sameInput_conclude _ _

/-- To make a connection cuts off packets, unless it fails because bytes are discarded. -/
theorem ends_serve_connect_sifts (ticket : Nat) (peerPort : UInt16) (draws : List Draw)
    (first : UInt32) (b : Switchboard) :
    (serve ticket (.connect peerPort draws first)).Ends b
      (fun _ c => b.stack.Cuts c.stack ∨
        c.outcomes = b.outcomes ++ [(ticket, .error discarded)] ∧ c.isRunning = b.isRunning)
      (fun _ c => b.stack.Cuts c.stack ∨
        c.outcomes = b.outcomes ++ [(ticket, .error discarded)] ∧ c.isRunning = b.isRunning) := by
  rw [serve, onStack, ends_bind, ends_attempt, ends_zoom]
  refine (Stack.sifts_connect peerPort draws first b.stack).mono (fun port t ht => ?_)
    fun h t ht => ?_
  · have hopen : Respects SameInput (openStream port) := fun _ => rfl
    have hrest : Respects SameInput (do
        if ticket ∈ (← get).abandoned then hangUp port
        else conclude ticket (.ok (← openStream port))
        dispatch) := by
      refine Respects.get.bind fun c => ?_
      split
      · exact (sameInput_hangUp port).bind fun _ => sameInput_dispatch
      · exact hopen.bind fun _ => (sameInput_conclude _ _).bind fun _ => sameInput_dispatch
    exact (cuts_of_sameInput (b := { b with stack := t }) hrest ht).mono
      (fun _ _ => .inl) fun _ _ => .inl
  · cases h with
    | waiting => exact .inl (ht.resolve_right (by rintro ⟨⟨⟩, -⟩))
    | failed e =>
      dsimp only
      rcases ht with ht | ⟨he, -⟩
      · have hrest : Respects SameInput (do conclude ticket (.error e); dispatch) :=
          (sameInput_conclude _ _).bind fun _ => sameInput_dispatch
        exact (cuts_of_sameInput (b := { b with stack := t }) hrest ht).mono
          (fun _ _ => .inl) fun _ _ => .inl
      · -- What is passed on afterwards is no outcome, and does not stop the switchboard.
        obtain rfl := Halt.failed.inj he
        rw [ends_bind, conclude, ends_modify]
        refine (quiet_dispatch _).mono (fun _ c hc => .inr ?_) fun _ c hc => .inr ?_
        · obtain ⟨_, _, _, rfl⟩ := hc
          exact ⟨rfl, rfl⟩
        · obtain ⟨_, _, _, rfl⟩ := hc
          exact ⟨rfl, rfl⟩

/-- So does a turn at the requests. -/
theorem ends_serveNext_sifts (b : Switchboard) :
    serveNext.Ends b (fun _ c => b.stack.Cuts c.stack ∨ b.Blames c)
      (fun _ c => b.stack.Cuts c.stack ∨ b.Blames c) := by
  rw [serveNext, ends_bind, ends_get]
  rcases hrequests : b.requests with _ | ⟨⟨ticket, request⟩, later⟩
  · dsimp only
    rw [ends_bind, ends_get]
    split
    · exact .inl (Stack.SameInput.cuts rfl)
    · exact (sameInput_stop b).mono (fun _ _ hc => .inl hc.cuts) fun _ _ hc => .inl hc.cuts
  · dsimp only
    rw [ends_bind, ends_modify]
    by_cases hconnect : ∃ peerPort draws first, request = .connect peerPort draws first
    · obtain ⟨peerPort, draws, first, rfl⟩ := hconnect
      have hblames {c : Switchboard}
          (hc : b.stack.Cuts c.stack ∨
            c.outcomes = b.outcomes ++ [(ticket, .error discarded)] ∧ c.isRunning = b.isRunning) :
          b.stack.Cuts c.stack ∨ b.Blames c :=
        hc.imp_right fun hc => ⟨ticket, peerPort, draws, first, later, hrequests, hc⟩
      exact (ends_serve_connect_sifts ticket peerPort draws first { b with requests := later }).mono
        (fun _ _ => hblames) fun _ _ => hblames
    · push Not at hconnect
      exact (sameInput_serve ticket hconnect { b with requests := later }).mono
        (fun _ _ hc => .inl (Stack.SameInput.cuts hc)) fun _ _ hc => .inl (Stack.SameInput.cuts hc)

end Switchboard

/-! ## Sessions -/

namespace Session

open Switchboard

variable {w : Session} {err : TunnelError} {bytes : Bytes} {i : Nat}

/-- Whatever comes later, the reads of a stream return some bytes and then report an error, and no
read waits until then. -/
def Told (w : Session) (err : TunnelError) (bytes : Bytes) (i : Nat) : Prop :=
  ∀ later, ∃ new, (w.play later).readsOf i = w.readsOf i ++ new ∧
    ((Stream.IsPlain new ∧ bytesOf new <+: bytes ∧
        ∀ most hm, (Act.read i most hm).result (w.play later).board ≠ []) ∨
      ∃ first rest, new = first ++ .error err :: rest ∧ Stream.IsPlain first ∧
        bytesOf first = bytes)

theorem Tells.told (h : w.Tells err bytes (w.readsOf i) i) : w.Told err bytes i := by
  intro later
  obtain ⟨-, new, s, hreads, hs, hreports⟩ := h.play later
  refine ⟨new, hreads, ?_⟩
  cases hreports with
  | pending first hrs he hi hp hb =>
    refine .inl ⟨hrs, ?_, fun most hm => ?_⟩
    · rw [← hb, Stream.passed, List.append_assoc]
      exact List.prefix_append _ _
    · -- The error is not read yet, so the next read returns something.
      have hsome := Stream.Reports.isSome_reading (.pending first hrs he hi hp hb) hrs most
      obtain ⟨p, hp⟩ := Option.isSome_iff_exists.1 hsome
      simp [result_read hs hm, hp]
  | reported first rest hrs hp hb => exact .inr ⟨first, rest, hrs, hp, hb⟩

theorem run_concat (e : Tunnel.Ends) (before : List Stack.Act) (acts : List Act) (act : Act) :
    run e before (acts ++ [act]) = (run e before acts).step act := by
  simp [run, play]

/-- Who learns of discarded bytes. If they were discarded in a turn at the tunnel, the switchboard
stops, and each stream on a route reports the error behind what it still has. If it was in a turn at
the requests, that turn was to make a connection; its outcome is the error, but the switchboard goes
on, and a stream on a route has nothing but bytes to return. -/
theorem told_of_discards {e : Tunnel.Ends} {before : List Stack.Act} {acts : List Act} {turn : Turn}
    (hrun : (run e before acts).board.isRunning = true)
    (h : (run e before acts).board.stack.Discards
      (run e before (acts ++ [Act.turn turn])).board.stack) :
    (turn = .atTunnel ∧ (run e before (acts ++ [Act.turn turn])).board.isRunning = false ∧
        ∀ i s, i ∈ (run e before acts).board.routes.map Prod.snd →
          (run e before acts).board.streams[i]? = some s → s.isHeld = true →
            ∃ bytes, (run e before (acts ++ [Act.turn turn])).Told discarded bytes i) ∨
      (turn = .atRequests ∧
        (run e before acts).board.Blames (run e before (acts ++ [Act.turn turn])).board ∧
        ∀ r ∈ (run e before (acts ++ [Act.turn turn])).board.routes,
          ∃ s, (run e before (acts ++ [Act.turn turn])).board.streams[r.2]? = some s ∧
            s.hasEnded = false ∧ Stream.IsPlain s.inbox) := by
  have hempty : Emptied (run e before acts).board := emptied_run hrun
  have hsound := sound_run e before acts
  rw [run_concat] at h ⊢
  generalize run e before acts = w at *
  cases turn with
  | atTunnel =>
    have hlistens : w.board.stack.Cuts (w.step (.turn .atTunnel)).board.stack ∨
        ∃ t, Stack.process w.board.stack = .error (.failed discarded) t := by
      refine Call.Ends.state (P := fun c : Switchboard => w.board.stack.Cuts c.stack ∨
        ∃ t, Stack.process w.board.stack = .error (.failed discarded) t) ?_
      rw [Act.call, ends_bind, ends_get, if_pos hrun]
      exact ends_listen_sifts w.board
    obtain ⟨t, hfails⟩ := hlistens.resolve_left fun hc => hc.not_discards h
    refine .inl ⟨rfl, ?_, fun i s hi hs hheld => ?_⟩
    · obtain ⟨live, hlive, hd⟩ := hsound.serves 0
      obtain rfl := hlive hrun
      refine Call.Ends.state (P := fun c : Switchboard => c.isRunning = false) ?_
      rw [Act.call, ends_bind, ends_get, if_pos hrun]
      exact (ends_listen_failed hd hfails).mono (fun _ _ hc => hc) fun _ _ => False.elim
    · have hfelled : i ∈ (Act.turn .atTunnel).felled w.board := by
        simpa [Act.felled, hfails] using hi
      obtain ⟨err, t', -, -, bytes, hfails', -, -, -, htells⟩ :=
        hsound.exists_tells hrun hempty hfelled hs hheld
      -- It is the same failure of which the streams are told.
      obtain rfl : discarded = err := by
        rw [hfails] at hfails'
        cases hfails'
        rfl
      have hreads : (w.step (.turn .atTunnel)).readsOf i = w.readsOf i := readsOf_step_of_nil rfl i
      exact ⟨bytes, Tells.told (hreads ▸ htells)⟩
  | atRequests =>
    have hserves : w.board.stack.Cuts (w.step (.turn .atRequests)).board.stack ∨
        w.board.Blames (w.step (.turn .atRequests)).board := by
      refine Call.Ends.state (P := fun c : Switchboard =>
        w.board.stack.Cuts c.stack ∨ w.board.Blames c) ?_
      rw [Act.call, ends_bind, ends_get, if_pos hrun]
      exact ends_serveNext_sifts w.board
    have hblames := hserves.resolve_left fun hc => hc.not_discards h
    refine .inr ⟨rfl, hblames, fun r hr => ?_⟩
    obtain ⟨-, -, -, -, -, -, -, hgoes⟩ := hblames
    obtain ⟨live, hlive, hd⟩ := (hsound.step (.turn .atRequests)).serves 0
    obtain rfl := hlive (hgoes.trans hrun)
    obtain ⟨s, hs⟩ := hd.exists_stream hr
    obtain ⟨a, -, -, hfaith⟩ := hd.streams r.2 s hs
    exact ⟨s, hs, hfaith.phase.of_live ⟨r.1, hr⟩⟩

/-- The device connects, and then there is something in the tunnel that is no packet. -/
def littered : List Act :=
  [.world ((Stack.replies.take 1).flatMap Ends.sample.packet) .silent none, .connect 80 [0] 7,
    .turn .atRequests, .world [0xff] .silent none]

theorem routes_littered : (run Ends.sample [] littered).board.routes = [(49152, 0)] := by
  cbv

theorem streams_littered :
    (run Ends.sample [] littered).board.streams[0]? = some { port := 49152 } := by
  cbv

theorem discards_littered : (run Ends.sample [] littered).board.stack.Discards
    (run Ends.sample [] (littered ++ [Act.turn .atTunnel])).board.stack := by
  refine .of_stream [0xff] rfl ?_ ?_ ?_
  all_goals cbv

/-- A turn at the tunnel reads it, and the stream is told. -/
theorem told_littered :
    (run Ends.sample [] littered).board.stack.Discards
        (run Ends.sample [] (littered ++ [Act.turn .atTunnel])).board.stack ∧
      (run Ends.sample [] (littered ++ [Act.turn .atTunnel])).board.isRunning = false ∧
      ∃ bytes, (run Ends.sample [] (littered ++ [Act.turn .atTunnel])).Told discarded bytes 0 := by
  rcases told_of_discards (by cbv) discards_littered with ⟨-, hstopped, htold⟩ | ⟨hturn, -⟩
  · refine ⟨discards_littered, hstopped, htold 0 { port := 49152 } ?_ streams_littered rfl⟩
    rw [routes_littered]
    exact List.mem_singleton_self 0
  · cases hturn

/-- It is there, and another connection is asked for. -/
def crowded : List Act :=
  littered ++ [Act.connect 81 [1] 9]

/-- If the request has its turn first, the switchboard goes on, and the stream that was there waits
for more. -/
theorem waits_crowded :
    (run Ends.sample [] crowded).board.stack.Discards
        (run Ends.sample [] (crowded ++ [Act.turn .atRequests])).board.stack ∧
      (run Ends.sample [] crowded).board.routes = [(49152, 0)] ∧
      (run Ends.sample [] (crowded ++ [Act.turn .atRequests])).board.isRunning = true ∧
      (run Ends.sample [] (crowded ++ [Act.turn .atRequests])).board.outcomes =
        [(0, .ok 0), (1, .error discarded)] ∧
      (run Ends.sample [] (crowded ++ [Act.turn .atRequests, .turn .atTunnel,
        .read 0 9 (by decide)])).readsOf 0 = [] := by
  refine ⟨.of_stream [0xff] rfl ?_ ?_ ?_, ?_, ?_, ?_, ?_⟩
  all_goals cbv

end Session

end Tether.Tunnel
