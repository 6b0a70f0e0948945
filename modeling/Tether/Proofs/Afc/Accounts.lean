import Tether.Proofs.Afc.Attempts

/-!
# What a client has open, and the numbers it sends

A client keeps the descriptors of its open files and the number of its next request. Along every
run of calls, with whatever the device sends and however the connection changes in between, both
are those of the account of the run: the descriptors are the ones that an open has come back with
and that it was not tried to close since, and the requests on the wire have consecutive numbers
from zero, whichever of them failed.

A handle that is dropped is a file of which nothing more is heard. A call that is given up while it
waits leaves its last request behind, and a file that was to be closed with it is still there.

* `Command.plan`, `Command.ends_accounts`: what each call tries, and its account;
* `Client.Recorded`: the accounts of runs;
* `Client.accounts_run`: the account of a run from its beginning.
-/

namespace Tether.Afc

variable {s t : Client} {log : List Event} {h : Halt DeviceError}

/-! ## Files -/

namespace File

/-- What opening a file asks. -/
def opening (path : String) (mode : OpenMode) : Ask :=
  ⟨.fileOpen, word mode.code ++ terminated [path], []⟩

variable (f : File)

/-- What reading a piece asks. -/
def reading (most : ℕ) : Ask :=
  ⟨.read, word f.descriptor ++ Bytes.ofNatLE 8 (min most maxTransfer), []⟩

/-- What writing a piece asks. -/
def writing (piece : Bytes) : Ask :=
  ⟨.write, word f.descriptor, piece⟩

/-- What asking for the position asks. -/
def telling : Ask :=
  ⟨.fileTell, word f.descriptor, []⟩

/-- What moving the position asks. -/
def seeking (whence : ℕ) (offset : UInt64) : Ask :=
  ⟨.fileSeek, word f.descriptor ++ Bytes.ofNatLE 8 whence ++ word offset, []⟩

/-- A file is registered if the open comes back with it, and only then. -/
theorem ends_openAt_accounts (path : String) (mode : OpenMode) (s : Client) :
    (openAt path mode).Ends s
      (fun f t => Accounts [.ended (opening path mode), .opened f.descriptor] s t)
      (fun h t => ∃ log, Stopped [opening path mode] h log ∧ Accounts log s t) := by
  have hasked : Follows [opening path mode] (do
      let answer ← Client.request .fileOpen (word mode.code ++ terminated [path]) []
      Call.ofExcept answer.leadNumber) :=
    (Client.follows_request .fileOpen _ [] (by decide)).bind_done fun _ => .ofExcept _
  have hopen := hasked s
  rw [Call.ends_bind] at hopen
  rw [openAt, Call.ends_bind]
  refine hopen.mono (fun answer t ht => ?_) fun _ _ h => h
  rw [Call.ends_bind]
  exact ht.mono (fun d u hu => hu.trans (.opened u d)) fun _ _ h => h

theorem follows_read (most : ℕ) : Follows [f.reading most] (f.read most) :=
  (Client.follows_request .read _ [] (by decide)).bind_done fun _ => .pure _

/-- Each piece is asked for with a request of its own, up to an empty one. -/
theorem ends_readPieces_accounts {fuel : ℕ} (hfuel : s.unread.length < headerLength * fuel) :
    (f.readPieces fuel).Ends s
      (fun _ t => ∃ n, Accounts
        ((List.replicate (n + 1) (f.reading maxTransfer)).map Event.ended) s t)
      (fun h t => ∃ n log, Stopped (List.replicate (n + 1) (f.reading maxTransfer)) h log ∧
        Accounts log s t) := by
  induction fuel generalizing s with
  | zero => exact absurd hfuel (Nat.not_lt_zero _)
  | succ fuel ih =>
    have hlength : (f.read maxTransfer).Ends s
        (fun _ t => t.unread.length + headerLength ≤ s.unread.length) (fun _ _ => True) := by
      rw [read, Call.ends_bind]
      exact (Client.ends_request_length _ _ _ s).mono (fun _ _ h => h) fun _ _ h => h
    rw [readPieces, Call.ends_bind]
    refine ((f.follows_read maxTransfer s).and hlength).mono ?_ ?_
    · rintro piece t ⟨ht, hle⟩
      split
      · exact ⟨0, ht⟩
      · rw [Call.ends_bind]
        refine (ih (by rw [Nat.mul_succ] at hfuel; omega)).mono ?_ ?_
        · rintro _ u ⟨n, hu⟩
          exact ⟨n + 1, by rw [List.replicate_succ]; exact ht.trans hu⟩
        · rintro h u ⟨n, log, hstopped, hu⟩
          refine ⟨n + 1, _, ?_, ht.trans hu⟩
          rw [List.replicate_succ]
          exact hstopped.append_left [f.reading maxTransfer]
    · rintro h t ⟨⟨log, hstopped, ht⟩, -⟩
      exact ⟨0, log, hstopped, ht⟩

theorem follows_write (bs : Bytes) :
    Follows ((pieces maxTransfer bs).map f.writing) (f.write bs) :=
  .forM fun piece => (Client.follows_request .write _ piece (by decide)).bind_done fun _ => .pure _

theorem follows_tell : Follows [f.telling] f.tell :=
  (Client.follows_request .fileTell _ [] (by decide)).bind_done fun _ => .ofExcept _

/-- What moving the position and asking for it asks, if the position can be told. -/
def seekPlan (origin : Origin) : List Ask :=
  match origin.codes? with
  | none => []
  | some (whence, offset) => [f.seeking whence offset, f.telling]

theorem follows_seek (origin : Origin) : Follows (f.seekPlan origin) (f.seek origin) := by
  intro s
  rw [seekPlan, seek, Call.ends_bind]
  cases origin.codes? with
  | none => exact ⟨[], .unasked rfl (Halt.failed_ne_waiting _), .refl s⟩
  | some codes =>
    exact (Client.follows_order .fileSeek _ (by decide)).bind (fun _ => f.follows_tell)
      (.inl (List.cons_ne_nil _ _)) s

end File

/-! ## Calls -/

namespace Command

/-- What a call is to ask while these files are open. How many pieces are asked for to reach the
end of a file depends on the file: here it is one more than `more`. -/
def plan (files : List UInt64) (more : ℕ) : Command → List Ask
  | listDirectory path => [⟨.readDir, Bytes.ofString path, []⟩]
  | makeDirectory path => [⟨.makeDir, Bytes.ofString path, []⟩]
  | remove path => [⟨.removePath, Bytes.ofString path, []⟩]
  | removeAll path => [⟨.removePathAndContents, Bytes.ofString path, []⟩]
  | rename source target => [⟨.renamePath, terminated [source, target], []⟩]
  | link target source kind =>
    [⟨.makeLink, Bytes.ofNatLE 8 kind.code.toNat ++ terminated [target, source], []⟩]
  | fileInfo path => [⟨.getFileInfo, Bytes.ofString path, []⟩]
  | deviceInfo => [⟨.getDeviceInfo, [], []⟩]
  | openAt path mode => [File.opening path mode]
  | read f most => [f.reading most]
  | readToEnd f => List.replicate (more + 1) (f.reading maxTransfer)
  | write f bs => (pieces maxTransfer bs).map f.writing
  | tell f => [f.telling]
  | seek f origin => f.seekPlan origin
  | closeFile f => [.closing f.descriptor]
  | close => files.map Ask.closing

/-- The descriptor that a call comes back with, if it opens a file. -/
def opened? (s : Client) : Command → Option UInt64
  | openAt path mode => ((File.openAt path mode).result s).toOption.map File.descriptor
  | _ => none

/-- The account of a call that ended so. -/
def Leaves (c : Command) (s : Client) (log : List Event) : Except (Halt DeviceError) Unit → Prop
  | .ok () => ∃ more, log =
      (c.plan s.openFiles more).map Event.ended ++ ((c.opened? s).map Event.opened).toList
  | .error h => ∃ more, Stopped (c.plan s.openFiles more) h log

/-- A call of which only the requests matter. -/
theorem ends_of_follows {c : Command} (hc : Follows (c.plan s.openFiles 0) c.call)
    (hopened : c.opened? s = none) :
    c.call.Ends s (fun u t => ∃ log, c.Leaves s log (.ok u) ∧ Accounts log s t)
      (fun h t => ∃ log, c.Leaves s log (.error h) ∧ Accounts log s t) := by
  refine (hc s).mono (fun _ t ht => ⟨_, ⟨0, ?_⟩, ht⟩) ?_
  · rw [hopened]
    exact (List.append_nil _).symm
  · rintro h t ⟨log, hstopped, ht⟩
    exact ⟨log, ⟨0, hstopped⟩, ht⟩

/-- Each call of the service has an account. -/
theorem ends_accounts (c : Command) (s : Client) :
    c.call.Ends s (fun u t => ∃ log, c.Leaves s log (.ok u) ∧ Accounts log s t)
      (fun h t => ∃ log, c.Leaves s log (.error h) ∧ Accounts log s t) := by
  cases c with
  | listDirectory path =>
    exact ends_of_follows (((Client.follows_request _ _ _ (by decide)).bind_done
      fun _ => .pure _).bind_done fun _ => .pure _) rfl
  | makeDirectory path => exact ends_of_follows (Client.follows_order _ _ (by decide)) rfl
  | remove path => exact ends_of_follows (Client.follows_order _ _ (by decide)) rfl
  | removeAll path => exact ends_of_follows (Client.follows_order _ _ (by decide)) rfl
  | rename source target => exact ends_of_follows (Client.follows_order _ _ (by decide)) rfl
  | link target source kind => exact ends_of_follows (Client.follows_order _ _ (by decide)) rfl
  | fileInfo path =>
    exact ends_of_follows (((Client.follows_request _ _ _ (by decide)).bind_done
      fun _ => .ofExcept _).bind_done fun _ => .pure _) rfl
  | deviceInfo =>
    exact ends_of_follows (((Client.follows_request _ _ _ (by decide)).bind_done
      fun _ => .ofExcept _).bind_done fun _ => .pure _) rfl
  | read f most => exact ends_of_follows ((f.follows_read most).bind_done fun _ => .pure _) rfl
  | write f bs => exact ends_of_follows (f.follows_write bs) rfl
  | tell f => exact ends_of_follows (f.follows_tell.bind_done fun _ => .pure _) rfl
  | seek f origin =>
    exact ends_of_follows ((f.follows_seek origin).bind_done fun _ => .pure _) rfl
  | closeFile f => exact ends_of_follows (Client.follows_closeDescriptor f.descriptor) rfl
  | openAt path mode =>
    rw [call, Call.ends_bind]
    refine ((Call.ends_self _ s).and (File.ends_openAt_accounts path mode s)).mono ?_ ?_
    · rintro f t ⟨hf, ht⟩
      refine ⟨_, ⟨0, ?_⟩, ht⟩
      rw [opened?, Call.result, hf]
      rfl
    · rintro h t ⟨-, log, hstopped, ht⟩
      exact ⟨log, ⟨0, hstopped⟩, ht⟩
  | readToEnd f =>
    have hfuel : s.unread.length < headerLength * (s.unread.length / headerLength + 1) := by
      simp only [headerLength]
      omega
    rw [call, Call.ends_bind]
    refine (f.ends_readPieces_accounts hfuel).mono ?_ ?_
    · rintro _ t ⟨more, ht⟩
      exact ⟨_, ⟨more, (List.append_nil _).symm⟩, ht⟩
    · rintro h t ⟨more, log, hstopped, ht⟩
      exact ⟨log, ⟨more, hstopped⟩, ht⟩
  | close =>
    rw [call, Call.ends_bind]
    refine (Client.ends_close_accounts s).mono (fun _ t ht => ?_) ?_
    · exact ⟨_, ⟨0, (List.append_nil _).symm⟩, ht⟩
    · rintro h t ⟨log, hstopped, ht⟩
      exact ⟨log, ⟨0, hstopped⟩, ht⟩

end Command

/-! ## Runs -/

namespace Client

/-- What happens to a client and what is called on it. -/
inductive Move where
  /-- The connection changes, in whatever way. What was sent was sent. -/
  | change (connection : Connection)
  /-- The open files come in another order. They have none of their own. -/
  | reorder (files : List UInt64)
  | call (c : Command)
  /-- A packet is sent by hand. -/
  | send (p : Packet)
  /-- A packet is received by hand. -/
  | receive

namespace Move

/-- The client afterwards. -/
def play (s : Client) : Move → Client
  | change connection =>
    let written := s.connection.transport.written
    { s with connection :=
        { connection with transport := { connection.transport with written } } }
  | reorder files => if files.Perm s.openFiles then { s with openFiles := files } else s
  | call c => c.call.state s
  | send p => (Client.send p).state s
  | receive => Client.receive.state s

/-- What there is to be said about it. -/
def Leaves (s : Client) (log : List Event) : Move → Prop
  | call c => c.Leaves s log (c.call.result s)
  | send p => ∃ bs, bs <+: p.toBytes ∧ log = [.posted bs] ∧
      ((Client.send p).result s = .ok () → bs = p.toBytes)
  | _ => log = []

/-- Whatever happens has an account. -/
theorem accounts_play (m : Move) (s : Client) :
    ∃ log, m.Leaves s log ∧ Accounts log s (m.play s) := by
  cases m with
  | change connection => exact ⟨[], rfl, .nil rfl rfl (.refl _)⟩
  | reorder files =>
    refine ⟨[], rfl, ?_⟩
    by_cases hperm : files.Perm s.openFiles
    · rw [play, if_pos hperm]
      exact .nil rfl rfl hperm
    · rw [play, if_neg hperm]
      exact .refl s
  | call c =>
    exact Call.Ends.of_result (P := fun r t => ∃ log, c.Leaves s log r ∧ Accounts log s t)
      (c.ends_accounts s)
  | send p =>
    have hkeeps : Call.Respects (fun s t : Client => t.nextNumber = s.nextNumber ∧
        t.openFiles = s.openFiles) (Client.send p) :=
      (Call.Respects.top _).zoom fun _ _ _ => ⟨rfl, rfl⟩
    refine Call.Ends.of_result (P := fun r t => ∃ log, (∃ bs, bs <+: p.toBytes ∧
      log = [.posted bs] ∧ (r = .ok () → bs = p.toBytes)) ∧ Accounts log s t)
      (((ends_send_cut p s).and (hkeeps s)).mono ?_ ?_)
    · rintro _ t ⟨hsent, hnumber, hfiles⟩
      exact ⟨_, ⟨_, List.prefix_refl _, rfl, fun _ => rfl⟩, .posted hsent hnumber hfiles⟩
    · rintro h t ⟨⟨-, -, n, -, hsent⟩, hnumber, hfiles⟩
      exact ⟨_, ⟨_, List.take_prefix n _, rfl, nofun⟩, .posted hsent hnumber hfiles⟩
  | receive => exact ⟨[], rfl, (quiet_receive.state s).accounts⟩

end Move

/-- A client after a run. -/
def moved (s : Client) (moves : List Move) : Client :=
  moves.foldl Move.play s

/-- The account of a run: what there is to be said about one move after the other. -/
inductive Recorded : Client → List Move → List Event → Prop where
  | nil (s : Client) : Recorded s [] []
  | cons {s : Client} {m : Move} {moves : List Move} {log log' : List Event}
      (hm : m.Leaves s log) (hmoves : Recorded (m.play s) moves log') :
      Recorded s (m :: moves) (log ++ log')

/-- Every run has an account. -/
theorem accounts_run (s : Client) (moves : List Move) :
    ∃ log, Recorded s moves log ∧ Accounts log s (s.moved moves) := by
  induction moves generalizing s with
  | nil => exact ⟨[], .nil s, .refl s⟩
  | cons m moves ih =>
    obtain ⟨log, hleaves, hm⟩ := m.accounts_play s
    obtain ⟨log', hrecorded, hmoves⟩ := ih (m.play s)
    exact ⟨log ++ log', .cons hleaves hrecorded, hm.trans hmoves⟩

/-- A client at its beginning. -/
def fresh (connection : Connection) : Client :=
  { connection }

/-- An open that fails registers nothing. -/
theorem mem_openFiles_of_failed (hs : s.openFiles.Nodup) {path : String} {mode : OpenMode}
    (hfailed : (File.openAt path mode).result s = .error h) (descriptor : UInt64) :
    descriptor ∈ ((File.openAt path mode).state s).openFiles ↔ descriptor ∈ s.openFiles := by
  refine Call.Ends.of_result (P := fun r t => r = .error h →
    (descriptor ∈ t.openFiles ↔ descriptor ∈ s.openFiles))
    ((File.ends_openAt_accounts path mode s).mono (fun _ _ _ => nofun) ?_) hfailed
  rintro halt t ⟨log, hstopped, ht⟩ -
  obtain ⟨a, ha, rfl⟩ : ∃ a : Attempt, a.ask = File.opening path mode ∧ log = [.tried a] := by
    cases hstopped with
    | unasked hplan hh => cases hplan
    | @during asks a hplan ha =>
      obtain ⟨rfl, hask⟩ : asks = [] ∧ a.ask = File.opening path mode := by
        simpa [List.prefix_cons_iff, List.append_eq_cons_iff] using hplan
      exact ⟨a, hask, rfl⟩
  have hspares : Spares [.tried a] descriptor := by
    intro b hb hcloses
    obtain rfl : b = a := by simpa using hb
    have hoperation : Operation.fileOpen = .fileClose :=
      congrArg Ask.operation (ha.symm.trans hcloses.1)
    cases hoperation
  simp [ht.isOpen hs, not_isOpen_tried, hspares]

/-- The open files of a client and the numbers of its requests are those of the account of its
run, and an open that fails adds nothing to them. -/
theorem accounted_for (connection : Connection) (moves : List Move) :
    ∃ log, Recorded (fresh connection) moves log ∧
      ((fresh connection).moved moves).openFiles.Nodup ∧
      (∀ descriptor, descriptor ∈ ((fresh connection).moved moves).openFiles ↔
        IsOpen log descriptor) ∧
      ((fresh connection).moved moves).sent = connection.transport.sent ++ onWire 0 log ∧
      ((fresh connection).moved moves).nextNumber = UInt64.ofNat (log.countP Event.isTried) ∧
      ∀ path mode halt,
        (File.openAt path mode).result ((fresh connection).moved moves) = .error halt →
        ∀ descriptor,
          descriptor ∈ ((File.openAt path mode).state ((fresh connection).moved moves)).openFiles ↔
            descriptor ∈ ((fresh connection).moved moves).openFiles := by
  obtain ⟨log, hrecorded, h⟩ := accounts_run (fresh connection) moves
  have hnodup := h.nodup List.nodup_nil
  refine ⟨log, hrecorded, hnodup, fun descriptor => ?_, h.sent, ?_,
    fun path mode halt hfailed => mem_openFiles_of_failed hnodup hfailed⟩
  · rw [h.isOpen List.nodup_nil]
    simp [fresh]
  · rw [h.number]
    exact UInt64.zero_add _

end Client

end Tether.Afc
