import Tether.Proofs.Http2.Parcel

/-!
# The order of payloads on a stream

A reader of one stream passes over the frames of all others. It keeps their payloads, answers
what has to be answered, and may stop in the middle of it at a frame that is an error. The
account of a reader (`Took`) says what must come of the parcels it consumed: each payload is
returned or in the queue of its own stream, behind the older ones, and the answers are
written in the order of the parcels. A reader keeps this account whatever it reads for and
however it ends, so any run of openings, sendings and readings keeps it as well.

* `ends_take`: what one reading returns, where it fails, and what it consumes;
* `conservation`: the payloads of a stream in any run, and the bytes that were written.
-/

namespace Tether.Http2

open Parcel (bytesOf)

namespace Client

variable {c d e : Client} {p : Parcel} {ps qs : List Parcel} {s : UInt32} {a : Bytes}

/-- What lies unread is these parcels, and every write will succeed. -/
structure Holds (c : Client) (ps : List Parcel) : Prop where
  unread : c.transport.unread = bytesOf ps
  allowance : c.transport.allowance = none

/-- From `c` to `d` these parcels were consumed: their answers were written, and their payloads
were handed `out` or put in the queues of their streams. -/
structure Took (out : UInt32 → List Bytes) (ps : List Parcel) (c d : Client) : Prop where
  written : d.transport.written =
    c.transport.written ++ (ps.flatMap Parcel.answers).map Parcel.toBytes
  queues : ∀ s, out s ++ d.queues s = c.queues s ++ ps.filterMap (Parcel.payloadFor? s)

/-- Nothing is handed out. -/
def nothing : UInt32 → List Bytes :=
  fun _ => []

/-- One payload of one stream is handed out. -/
def only (s : UInt32) (a : Bytes) : UInt32 → List Bytes :=
  fun s' => if s' = s then [a] else []

theorem Took.refl (c : Client) : Took nothing [] c c :=
  ⟨by simp, fun s => by simp [nothing]⟩

theorem Took.trans {out : UInt32 → List Bytes} (h : Took nothing ps c d) (h' : Took out qs d e) :
    Took out (ps ++ qs) c e where
  written := by simp [h'.written, h.written]
  queues s := by
    have hd : d.queues s = c.queues s ++ ps.filterMap (Parcel.payloadFor? s) := h.queues s
    rw [h'.queues s, hd, List.filterMap_append, List.append_assoc]

/-! ### One frame -/

/-- The client after it wrote some parcels. -/
def wrote (c : Client) (ps : List Parcel) : Client :=
  { c with
    transport := { c.transport with written := c.transport.written ++ ps.map Parcel.toBytes } }

/-- Where writes succeed, writing a frame adds its bytes, which are those of a parcel. -/
theorem ends_writeFrame {f : Frame} (hc : c.transport.allowance = none)
    (hf : f.toBytes = p.toBytes) :
    (writeFrame f).Ends c (fun _ d => d = c.wrote [p]) (fun _ _ => False) := by
  have hne : p.toBytes ≠ [] := List.ne_nil_of_length_pos (by simp)
  simp [Call.Ends, writeFrame, write, onTransport, Call.zoom, Transport.writeAll, hc, hf, hne,
    wrote]

/-- What lies unread and the queues are the same, and writes go on to succeed. -/
structure Same (c d : Client) : Prop where
  unread : d.transport.unread = c.transport.unread
  queues : d.queues = c.queues
  allowance : c.transport.allowance = none → d.transport.allowance = none

instance isPreorder_same : IsPreorder Client Same where
  refl _ := ⟨rfl, rfl, id⟩
  trans _ _ _ h h' :=
    ⟨h'.unread.trans h.unread, h'.queues.trans h.queues, h'.allowance ∘ h.allowance⟩

theorem Same.holds (h : Same c d) (hc : c.Holds ps) : d.Holds ps :=
  ⟨h.unread.trans hc.unread, h.allowance hc.allowance⟩

/-- Writing touches neither. -/
theorem same_write (bs : Bytes) : Call.Respects Same (write bs) := by
  intro c
  rw [write, onTransport, Call.ends_zoom, Call.ends_zoom]
  rw [Call.Ends, Transport.writeAll]
  by_cases hbs : bs.isEmpty
  · rw [if_pos hbs]
    exact ⟨rfl, rfl, id⟩
  · rw [if_neg hbs]
    cases ha : c.transport.allowance with
    | none => simpa [ha] using ⟨rfl, rfl, fun _ => rfl⟩
    | some left =>
      by_cases hleft : bs.length ≤ left.1
      · simpa [ha, hleft] using ⟨rfl, rfl, by simp [ha]⟩
      · simpa [ha, hleft] using ⟨rfl, rfl, by simp [ha]⟩

/-- Reading a frame takes one parcel and touches nothing but the transport. -/
theorem ends_read (hc : c.Holds (p :: ps)) :
    (onTransport Frame.read).Ends c
      (fun f d => p.frame = .ok f ∧ d.Holds ps ∧ d.queues = c.queues ∧
        d.transport.written = c.transport.written)
      (fun h d => d.Holds ps ∧ d.queues = c.queues ∧
        d.transport.written = c.transport.written ∧ ∃ e, p.frame = .error e ∧ h = .failed e) := by
  obtain ⟨reads, hread⟩ := Frame.read_bytesOf hc.unread
  rw [onTransport, Call.ends_zoom, Call.Ends, hread]
  cases p.frame with
  | ok f => exact ⟨rfl, ⟨rfl, hc.allowance⟩, rfl, rfl⟩
  | error e => exact ⟨⟨rfl, hc.allowance⟩, rfl, rfl, e, rfl, rfl⟩

/-- Reading a frame where there is none changes nothing. -/
theorem ends_read_nil (hc : c.Holds []) :
    (onTransport Frame.read).Ends c (fun _ _ => False) (fun _ d => d = c) := by
  obtain ⟨halt, hread⟩ := Frame.read_nil hc.unread
  rw [onTransport, Call.ends_zoom, Call.Ends, hread]
  cases halt <;> rfl

/-- The windows are refilled as the answers of a parcel with data say. -/
theorem ends_refill (hp : p.type = 0) (hc : c.transport.allowance = none) :
    (refill p.stream p.payload).Ends c (fun _ d => d = c.wrote p.answers) (fun _ _ => False) := by
  rw [refill, p.answers_of_data hp]
  split
  · rw [Call.ends_bind]
    refine (ends_writeFrame hc (p.toBytes_refill rfl)).mono ?_ fun _ _ h => h
    rintro _ _ rfl
    refine Call.Ends.mono (s := c.wrote [p.refill 0]) (ends_writeFrame hc
      (p.toBytes_refill p.streamBits_stream)) ?_ fun _ _ h => h
    rintro _ _ rfl
    simp [wrote]
  · simp [wrote]

theorem filterMap_payloadFor? (p : Parcel) (s : UInt32) :
    [p].filterMap (Parcel.payloadFor? s) = (p.payloadFor? s).toList := by
  cases h : p.payloadFor? s <;> simp [h]

/-- Writing the answers of a parcel is all there is to do for it if it has no payload. -/
theorem took_wrote (hp : p.type ≠ 0) : Took nothing [p] c (c.wrote p.answers) :=
  ⟨by simp [wrote], fun s => by simp [nothing, wrote, p.payloadFor?_of_type_ne hp]⟩

/-- Parameters and pings: one answer, unless they are answers themselves. -/
theorem ends_acknowledge {f : Frame} {q : Parcel} (hc : c.transport.allowance = none)
    (hanswers : p.answers = if p.flags &&& 1 = 0 then [q] else [])
    (hf : f.toBytes = q.toBytes) :
    Call.Ends
      (do
        if p.flags &&& Frame.acknowledged = 0 then writeFrame f
        pure (none : Option Bytes)) c
      (fun r d => r = none ∧ d = c.wrote p.answers) (fun _ _ => False) := by
  rw [hanswers, show (1 : UInt8) = Frame.acknowledged from rfl]
  split
  · rw [Call.ends_bind]
    exact (ends_writeFrame hc hf).mono (fun _ _ h => ⟨rfl, h⟩) fun _ _ h => h
  · exact ⟨rfl, by simp [wrote]⟩

/-- What a frame does to a reader whose queue is empty: the answers of its parcel are written,
and its payload is returned or kept. -/
theorem ends_react {f : Frame} (hf : p.frame = .ok f) (hc : c.transport.allowance = none)
    (hs : c.queues s = []) :
    (react s f).Ends c
      (fun r d => r = p.payloadFor? s ∧ Took (fun s' => if s' = s then r.toList else []) [p] c d ∧
        d.transport.unread = c.transport.unread ∧ d.transport.allowance = none)
      (fun _ _ => False) := by
  -- Where there is no payload, the answers are all.
  have hnone : p.type ≠ 0 → ∀ d, d = c.wrote p.answers →
      none = p.payloadFor? s ∧
        Took (fun s' => if s' = s then (none : Option Bytes).toList else []) [p] c d ∧
        d.transport.unread = c.transport.unread ∧ d.transport.allowance = none := by
    rintro hp _ rfl
    have htook := took_wrote (c := c) hp
    refine ⟨(p.payloadFor?_of_type_ne hp).symm, ⟨htook.written, fun s' => ?_⟩, rfl, hc⟩
    simpa [nothing] using htook.queues s'
  rcases p.frame_cases with ⟨htype, heq⟩ | ⟨htype, heq⟩ | ⟨htype, heq⟩ | ⟨htype, heq⟩
  · -- Data: the windows first, then the payload to the caller or into its queue.
    obtain rfl : f = .data p.stream p.payload := by simpa [heq] using hf.symm
    rw [react, Call.ends_bind]
    refine (ends_refill htype hc).mono ?_ fun _ _ h => h
    rintro - _ rfl
    rw [p.payloadFor?_of_type htype]
    by_cases hsource : p.stream = s
    · simp only [if_pos hsource]
      refine ⟨rfl, ⟨by simp [wrote], fun s' => ?_⟩, rfl, hc⟩
      -- The queue is empty, so the payload is the oldest of its stream.
      rw [filterMap_payloadFor?, p.payloadFor?_of_type htype, hsource]
      by_cases hs' : s' = s
      · simp [hs', wrote, hs]
      · simp [hs', wrote, Ne.symm hs']
    · simp only [if_neg hsource]
      refine ⟨rfl, ⟨by simp [wrote], fun s' => ?_⟩, rfl, hc⟩
      rw [filterMap_payloadFor?, p.payloadFor?_of_type htype]
      by_cases hs' : s' = p.stream
      · simp [hs', wrote]
      · simp [hs', wrote, Ne.symm hs']
  · -- Parameters.
    obtain rfl : f = .settings (Setting.ofPayload p.payload) p.stream p.flags := by
      simpa [heq] using hf.symm
    have htype' : p.type ≠ 0 := by simp [htype]
    refine (ends_acknowledge hc (p.answers_of_settings htype)
      Parcel.toBytes_settingsAck).mono ?_ fun _ _ h => h
    rintro _ _ ⟨rfl, rfl⟩
    exact hnone htype' _ rfl
  · -- A ping.
    obtain rfl : f = .ping p.flags p.payload := by simpa [heq] using hf.symm
    have htype' : p.type ≠ 0 := by simp [htype]
    refine (ends_acknowledge hc (p.answers_of_ping htype)
      p.toBytes_pingAck).mono ?_ fun _ _ h => h
    rintro _ _ ⟨rfl, rfl⟩
    exact hnone htype' _ rfl
  · -- Nothing to do.
    have hsame : c = c.wrote p.answers := by simp [wrote, p.answers_eq_nil htype]
    rcases heq with (heq | heq | ⟨_, heq⟩) | ⟨_, heq⟩ <;> rw [heq] at hf <;> cases hf <;>
      exact hnone htype.1 _ hsame

/-! ### One reading -/

/-- What a reader of a stream gets from a parcel: an error, a payload, or nothing, and then it
goes on. -/
def outcome (s : UInt32) (p : Parcel) : Option (Except DeviceError Bytes) :=
  match p.frame with
  | .ok _ => (p.payloadFor? s).map .ok
  | .error e => some (.error e)

/-- A reader of a stream goes on up to the last of these parcels, and that one is `r` to it. -/
inductive Reaches (s : UInt32) (r : Except DeviceError Bytes) : List Parcel → Prop where
  | stop {p : Parcel} (h : outcome s p = some r) : Reaches s r [p]
  | pass {p : Parcel} {ps : List Parcel} (h : outcome s p = none) (hps : Reaches s r ps) :
    Reaches s r (p :: ps)

theorem payloadFor?_of_outcome {r : Option Bytes} (h : outcome s p = r.map .ok) :
    p.payloadFor? s = r := by
  rw [outcome] at h
  split at h
  · cases hr : p.payloadFor? s <;> cases r <;> simp_all
  · cases r <;> simp at h

theorem payloads_of_reaches (h : Reaches s (.ok a) ps) :
    ps.filterMap (Parcel.payloadFor? s) = [a] := by
  induction h with
  | stop h => simp [payloadFor?_of_outcome (r := some a) h]
  | pass h _ ih => simp [payloadFor?_of_outcome (r := none) h, ih]

theorem payloads_of_forall_pass (h : ∀ p ∈ ps, outcome s p = none) :
    ps.filterMap (Parcel.payloadFor? s) = [] := by
  rw [List.filterMap_eq_nil_iff]
  exact fun p hp => payloadFor?_of_outcome (r := none) (h p hp)

theorem error_of_reaches {e : DeviceError} (h : Reaches s (.error e) ps) :
    ∃ p ∈ ps, p.frame = .error e := by
  induction h with
  | @stop p h =>
    rw [outcome] at h
    split at h
    · cases hr : p.payloadFor? s <;> simp [hr] at h
    · next he => exact ⟨p, by simp, by simpa [he] using h⟩
  | pass h _ ih =>
    obtain ⟨p, hp, he⟩ := ih
    exact ⟨p, List.mem_cons_of_mem _ hp, he⟩

/-- A reader whose queue is empty consumes parcels up to the first one that has a payload for it
or is an error. If there is none it consumes all of them and does not return. -/
theorem ends_takeMore {fuel : Nat} (hc : c.Holds ps) (hs : c.queues s = [])
    (hfuel : ps.length < fuel) :
    (takeMore s fuel).Ends c
      (fun a d => ∃ eaten left, ps = eaten ++ left ∧ Reaches s (.ok a) eaten ∧
        d.Holds left ∧ Took (only s a) eaten c d)
      (fun h d => (∃ eaten left e, ps = eaten ++ left ∧ Reaches s (.error e) eaten ∧
          h = .failed e ∧ d.Holds left ∧ Took nothing eaten c d) ∨
        (∀ p ∈ ps, outcome s p = none) ∧ d.Holds [] ∧ Took nothing ps c d) := by
  induction ps generalizing c fuel with
  | nil =>
    obtain ⟨fuel, rfl⟩ : ∃ n, fuel = n + 1 := ⟨fuel - 1, by omega⟩
    rw [takeMore, Call.ends_bind]
    refine (ends_read_nil hc).mono (fun _ _ h => h.elim) ?_
    rintro _ _ rfl
    exact .inr ⟨by simp, hc, Took.refl _⟩
  | cons p ps ih =>
    rw [List.length_cons] at hfuel
    obtain ⟨fuel, rfl⟩ : ∃ n, fuel = n + 1 := ⟨fuel - 1, by omega⟩
    rw [takeMore, Call.ends_bind]
    refine (ends_read hc).mono ?_ ?_
    · rintro f c₁ ⟨hf, hc₁, hqueues, hwritten⟩
      rw [Call.ends_bind]
      refine (ends_react hf hc₁.allowance (hqueues ▸ hs)).mono ?_ fun _ _ h => h.elim
      rintro r c₂ ⟨hr, htook, hunread, hallowance⟩
      have hc₂ : c₂.Holds ps := ⟨hunread.trans hc₁.unread, hallowance⟩
      -- Reading the frame did not touch what the account is about.
      have htook : Took (fun s' => if s' = s then r.toList else []) [p] c c₂ :=
        ⟨hwritten ▸ htook.written, hqueues ▸ htook.queues⟩
      cases r with
      | some a =>
        exact ⟨[p], ps, rfl, .stop (by simp [outcome, hf, ← hr]), hc₂, htook⟩
      | none =>
        have hpass : outcome s p = none := by simp [outcome, hf, ← hr]
        have htook : Took nothing [p] c c₂ :=
          ⟨htook.written, fun s' => by simpa [nothing] using htook.queues s'⟩
        have hs₂ : c₂.queues s = [] := by
          have := htook.queues s
          simpa [nothing, hs, filterMap_payloadFor?, ← hr] using this
        refine (ih hc₂ hs₂ (by omega)).mono ?_ ?_
        · rintro a d ⟨eaten, left, rfl, hreach, hd, h⟩
          exact ⟨p :: eaten, left, rfl, .pass hpass hreach, hd, htook.trans h⟩
        · rintro h d (⟨eaten, left, e, rfl, hreach, rfl, hd, h⟩ | ⟨hall, hd, h⟩)
          · exact .inl ⟨p :: eaten, left, e, rfl, .pass hpass hreach, rfl, hd, htook.trans h⟩
          · exact .inr ⟨by simpa [hpass] using hall, hd, htook.trans h⟩
    · rintro _ d ⟨hd, hqueues, hwritten, e, he, rfl⟩
      refine .inl ⟨[p], ps, e, rfl, .stop (by simp [outcome, he]), rfl, hd, ?_, fun s' => ?_⟩
      · simp [hwritten, p.answers_eq_nil (Parcel.type_ne_of_error he)]
      · simp [hqueues, nothing, p.payloadFor?_of_type_ne (Parcel.type_ne_of_error he).1]

/-- A reading returns the oldest payload in the queue of its stream. If there is none it consumes
parcels up to the first one that has a payload for it or is an error, or all of them. -/
theorem ends_take (hc : c.Holds ps) :
    (take s).Ends c
      (fun a d => ∃ eaten left, ps = eaten ++ left ∧ d.Holds left ∧ Took (only s a) eaten c d ∧
        (c.queues s = [] ∧ Reaches s (.ok a) eaten ∨ c.queues s ≠ [] ∧ eaten = []))
      (fun h d => c.queues s = [] ∧
        ((∃ eaten left e, ps = eaten ++ left ∧ Reaches s (.error e) eaten ∧
            h = .failed e ∧ d.Holds left ∧ Took nothing eaten c d) ∨
          (∀ p ∈ ps, outcome s p = none) ∧ d.Holds [] ∧ Took nothing ps c d)) := by
  rw [take, Call.ends_bind, dequeue, Call.ends_bind, Call.ends_get]
  split
  · next hs =>
    rw [Call.ends_pure, Call.ends_bind, Call.ends_get]
    have hfuel : ps.length < c.transport.unread.length + 1 := by
      rw [hc.unread]
      exact Nat.lt_succ_of_le (Parcel.length_le_length_bytesOf ps)
    refine (ends_takeMore hc hs hfuel).mono ?_ fun _ _ h => ⟨hs, h⟩
    rintro a d ⟨eaten, left, hps, hreach, hd, htook⟩
    exact ⟨eaten, left, hps, hd, htook, .inl ⟨hs, hreach⟩⟩
  · next a rest hs =>
    rw [Call.ends_bind, Call.ends_set, Call.ends_pure, Call.ends_pure]
    refine ⟨[], ps, rfl, ⟨hc.unread, hc.allowance⟩, ⟨by simp, fun s' => ?_⟩,
      .inr ⟨by simp [hs], rfl⟩⟩
    by_cases hs' : s' = s
    · simp [hs', only, hs]
    · simp [hs', only]

/-! ### Runs -/

/-- What the near end may do with a connection. -/
inductive Act where
  | openStream (s : UInt32)
  | send (payload : Bytes) (s : UInt32)
  | take (s : UInt32)

/-- A reading that came to an end: what for, with what result, and what was written by it. -/
structure Reading where
  stream : UInt32
  result : Except (Halt DeviceError) Bytes
  wrote : List Bytes

/-- Reads for a stream and keeps a record of it. -/
def record (s : UInt32) (c : Client) : Client × Reading :=
  let result := match take s c with
    | .ok a _ => .ok a
    | .error h _ => .error h
  let d := (take s).state c
  (d, ⟨s, result, d.transport.written.drop c.transport.written.length⟩)

/-- Does some acts one after the other and keeps a record of the readings among them. -/
def play : List Act → Client → Client × List Reading
  | [], c => (c, [])
  | .openStream s :: acts, c => play acts ((openStream s).state c)
  | .send payload s :: acts, c => play acts ((send payload s).state c)
  | .take s :: acts, c =>
    let (d, reading) := record s c
    let (e, readings) := play acts d
    (e, reading :: readings)

/-- What a reading handed out. -/
def Reading.out (r : Reading) : UInt32 → List Bytes :=
  match r.result with
  | .ok a => only r.stream a
  | .error _ => nothing

/-- The payloads of a stream that were returned. -/
def returned (readings : List Reading) (s : UInt32) : List Bytes :=
  readings.flatMap fun r => r.out s

/-- A connection that was just started over a transport. -/
def started (t : Transport) : Client :=
  start.state { transport := t }

theorem wrote_record (s : UInt32) (c : Client) :
    (record s c).2.wrote =
      (record s c).1.transport.written.drop c.transport.written.length :=
  rfl

/-- A reading keeps the account, however it ends. -/
theorem took_record (hc : c.Holds ps) (s : UInt32) :
    ∃ eaten left, ps = eaten ++ left ∧ (record s c).1.Holds left ∧
      Took (record s c).2.out eaten c (record s c).1 := by
  have h := ends_take (s := s) hc
  simp only [Call.Ends] at h
  simp only [record, Reading.out, Call.state]
  split at h
  · next heq =>
    obtain ⟨eaten, left, hps, hd, htook, -⟩ := h
    rw [heq]
    exact ⟨eaten, left, hps, hd, htook⟩
  · next heq =>
    rw [heq]
    rcases h with ⟨-, ⟨eaten, left, -, hps, -, -, hd, htook⟩ | ⟨-, hd, htook⟩⟩
    · exact ⟨eaten, left, hps, hd, htook⟩
    · exact ⟨ps, [], by simp, hd, htook⟩

/-- So any run keeps it. -/
theorem took_play (hc : c.Holds ps) (acts : List Act) :
    ∃ eaten left, ps = eaten ++ left ∧ (play acts c).1.Holds left ∧
      (∀ s, returned (play acts c).2 s ++ (play acts c).1.queues s =
        c.queues s ++ eaten.filterMap (Parcel.payloadFor? s)) ∧
      (play acts c).2.flatMap Reading.wrote =
        (eaten.flatMap Parcel.answers).map Parcel.toBytes := by
  induction acts generalizing c ps with
  | nil => exact ⟨[], ps, rfl, hc, by simp [play, returned], by simp [play]⟩
  | cons act acts ih =>
    cases act with
    | openStream s =>
      have hsame := (same_write (Frame.headers s).toBytes).state c
      exact hsame.queues ▸ ih (hsame.holds hc)
    | send payload s =>
      have hsame := (same_write (Frame.data s payload).toBytes).state c
      exact hsame.queues ▸ ih (hsame.holds hc)
    | take s =>
      obtain ⟨eaten, left, rfl, hd, htook⟩ := took_record hc s
      obtain ⟨eaten', left', rfl, he, hqueues, hwrote⟩ := ih hd
      refine ⟨eaten ++ eaten', left', by simp, he, fun s' => ?_, ?_⟩
      · simp only [play, returned, List.flatMap_cons, List.append_assoc]
        simp only [returned] at hqueues
        rw [hqueues s', ← List.append_assoc, htook.queues s', List.filterMap_append,
          List.append_assoc]
      · simp only [play, List.flatMap_cons, hwrote, List.flatMap_append, List.map_append]
        congr 1
        rw [wrote_record, htook.written, List.drop_left]

/-- Over any transport that holds complete frames, whatever was opened, sent and read: the
payloads of a stream that were returned and those in its queue are, in order, those of the
consumed frames, and the readings wrote the answers of these frames, in their order. A reader
gets the next payload of its stream unless an error comes first or there is none. -/
theorem conservation {t : Transport} (hunread : t.unread = bytesOf ps)
    (hallowance : t.allowance = none) (acts : List Act) :
    ∃ eaten left, ps = eaten ++ left ∧
      (play acts (started t)).1.transport.unread = bytesOf left ∧
      (∀ s, returned (play acts (started t)).2 s ++ (play acts (started t)).1.queues s =
        eaten.filterMap (Parcel.payloadFor? s)) ∧
      (play acts (started t)).2.flatMap Reading.wrote =
        (eaten.flatMap Parcel.answers).map Parcel.toBytes ∧
      ∀ s, (take s).Ends (play acts (started t)).1
        (fun a _ => ((play acts (started t)).1.queues s ++
          left.filterMap (Parcel.payloadFor? s)).head? = some a)
        (fun h _ => (play acts (started t)).1.queues s = [] ∧
          ((∃ eaten' left' e, left = eaten' ++ left' ∧ Reaches s (.error e) eaten' ∧
              h = .failed e) ∨
            ∀ p ∈ left, outcome s p = none)) := by
  have hsame : Same { transport := t } (started t) := (same_write preface).state _
  have hc : (started t).Holds ps := hsame.holds ⟨hunread, hallowance⟩
  obtain ⟨eaten, left, hps, hd, haccount, hwrote⟩ := took_play hc acts
  refine ⟨eaten, left, hps, hd.unread, fun s => ?_, hwrote, fun s => ?_⟩
  · simpa [hsame.queues] using haccount s
  · refine (ends_take hd).mono ?_ ?_
    · rintro a e ⟨eaten', left', rfl, -, htook, -⟩
      -- What is handed out was the oldest, as the account puts it in front of the queue.
      have haccount := htook.queues s
      rw [List.filterMap_append, ← List.append_assoc]
      rw [← haccount]
      simp [only]
    · rintro h e ⟨hs, ⟨eaten', left', e, hleft, hreach, rfl, -⟩ | ⟨hall, -⟩⟩
      · exact ⟨hs, .inl ⟨eaten', left', e, hleft, hreach, rfl⟩⟩
      · exact ⟨hs, .inr hall⟩

/-- Parameters, data of a stream that the device opened, a reset, and data of another stream. -/
def incoming : List Parcel :=
  [⟨4, 0, 0, [0, 4, 0, 1, 0, 0], by decide⟩, ⟨0, 0, 2, [104, 105], by decide⟩,
    ⟨3, 0, 1, [0, 0, 0, 8], by decide⟩, ⟨0, 1, 1, [111, 107, 10], by decide⟩]

/-- A reading that fails at the reset, one behind it, and one from a queue. -/
def reading : List Act :=
  [.openStream 1, .take 1, .take 1, .take 2]

/-- The near end of a transport that brings one byte at a time. -/
def trickling : Transport :=
  { unread := bytesOf incoming, ending := .silent, pace := fun _ => some 1 }

theorem conservation_trickling :
    (trickling.unread = bytesOf incoming ∧ trickling.allowance = none) ∧
      (∃ eaten left, incoming = eaten ++ left ∧
        (∀ s, returned (play reading (started trickling)).2 s ++
            (play reading (started trickling)).1.queues s =
          eaten.filterMap (Parcel.payloadFor? s)) ∧
        (play reading (started trickling)).2.flatMap Reading.wrote =
          (eaten.flatMap Parcel.answers).map Parcel.toBytes) ∧
      returned (play reading (started trickling)).2 1 = [[111, 107, 10]] ∧
      returned (play reading (started trickling)).2 2 = [[104, 105]] := by
  obtain ⟨eaten, left, hps, -, haccount, hwrote, -⟩ :=
    conservation (show trickling.unread = bytesOf incoming from rfl) rfl reading
  exact ⟨⟨rfl, rfl⟩, ⟨eaten, left, hps, haccount, hwrote⟩, by cbv, by cbv⟩

end Client

end Tether.Http2
