import Tether.Proofs.Afc.Replies

/-!
# Closing a client

Closing a client closes the files that are still open, one request for each, and then the
connection. A file is forgotten as soon as its request is answered, also where the answer is a
failure. The failure itself ends the closing, though: the files behind this one stay open, and the
connection is not shut down.

* `ends_closeDescriptor`: one file is closed with one request, whatever the answer is;
* `ends_closeDescriptors`: so are files one after the other, up to the first failure;
* `closes_until_failure`: all is released just where no answer is a failure.
-/

namespace Tether

/-! ### What a request leaves alone -/

namespace Connection

/-- From `s` to `t` the connection was neither closed nor shut down. -/
structure KeepsShut (s t : Connection) : Prop where
  isOpen : t.isOpen = s.isOpen
  transport : s.transport.KeepsShut t.transport

instance isPreorder_keepsShut : IsPreorder Connection KeepsShut where
  refl s := ⟨rfl, refl_of Transport.KeepsShut s.transport⟩
  trans _ _ _ h h' := ⟨h'.isOpen.trans h.isOpen,
    trans_of Transport.KeepsShut h.transport h'.transport⟩

theorem keepsShut_onTransport {α : Type} {c : Call Fault Transport α}
    (hc : Call.Respects Transport.KeepsShut c) : Call.Respects KeepsShut (onTransport c) := by
  refine Call.Respects.get.bind fun s => ?_
  split
  · exact hc.zoom fun _ _ h => ⟨rfl, h⟩
  · exact .fail _

theorem keepsShut_readRaw (n : Nat) : Call.Respects KeepsShut (readRaw n) :=
  keepsShut_onTransport (Transport.keepsShut_readExact n)

theorem keepsShut_sendRaw (bs : Bytes) : Call.Respects KeepsShut (sendRaw bs) :=
  keepsShut_onTransport (.forM fun _ _ => Transport.keepsShut_writeAll _)

end Connection

namespace Afc

open Packet (bytesOf)

theorem Packet.keepsShut_receive : Call.Respects Connection.KeepsShut Packet.receive :=
  (Connection.keepsShut_readRaw _).bind fun _ => (Call.Respects.ofExcept _).bind fun _ =>
    (Connection.keepsShut_readRaw _).bind fun _ => (Connection.keepsShut_readRaw _).bind fun _ =>
      .pure _

/-- What closing a descriptor asks. -/
def Ask.closing (descriptor : UInt64) : Ask :=
  ⟨.fileClose, File.word descriptor, []⟩

namespace Client

variable {s t u : Client} {p : Packet} {ps : List Packet} {rest : Bytes} {descriptor : UInt64}
  {ds ds' : List UInt64}

/-- From `s` to `t` no file was opened or closed, and the connection was neither. -/
structure Keeps (s t : Client) : Prop where
  openFiles : t.openFiles = s.openFiles
  connection : s.connection.KeepsShut t.connection

instance isPreorder_keeps : IsPreorder Client Keeps where
  refl s := ⟨rfl, refl_of Connection.KeepsShut s.connection⟩
  trans _ _ _ h h' := ⟨h'.openFiles.trans h.openFiles,
    trans_of Connection.KeepsShut h.connection h'.connection⟩

theorem keeps_onConnection {α : Type} {c : Call DeviceError Connection α}
    (hc : Call.Respects Connection.KeepsShut c) : Call.Respects Keeps (onConnection c) :=
  hc.zoom fun _ _ h => ⟨rfl, h⟩

theorem keeps_request (operation : Operation) (lead content : Bytes) :
    Call.Respects Keeps (request operation lead content) :=
  Call.Respects.get.bind fun _ =>
    Call.Respects.bind (.modify fun s => ⟨rfl, refl_of Connection.KeepsShut s.connection⟩) fun _ =>
      (keeps_onConnection (Connection.keepsShut_sendRaw _)).bind fun _ =>
        (keeps_onConnection Packet.keepsShut_receive).bind fun _ =>
          (Call.Respects.ofExcept _).bind fun _ => .pure _

/-! ### Closing files -/

/-- From `s` to `t` these files were closed, with one request for each and a reply to it. -/
structure Closes (ds : List UInt64) (ps : List Packet) (s t : Client) : Prop where
  exchanged : Exchanged (ds.map Ask.closing) ps s t
  openFiles : t.openFiles = s.openFiles.diff ds
  connection : s.connection.KeepsShut t.connection
  ready : t.Ready

theorem Closes.nil (hs : s.Ready) : Closes [] [] s s where
  exchanged := .nil rfl rfl rfl id
  openFiles := (List.diff_nil _).symm
  connection := refl_of Connection.KeepsShut s.connection
  ready := hs

theorem Closes.cons (h : Closes [descriptor] [p] s t) (h' : Closes ds ps t u) :
    Closes (descriptor :: ds) (p :: ps) s u where
  exchanged := h.exchanged.trans h'.exchanged
  openFiles := by rw [h'.openFiles, h.openFiles, List.diff_cons, List.diff_nil, List.diff_cons]
  connection := trans_of Connection.KeepsShut h.connection h'.connection
  ready := h'.ready

/-- Of what has arrived the replies are taken. -/
theorem Closes.unread (h : Closes ds ps s t) (hs : s.unread = bytesOf ps ++ rest) :
    t.unread = rest :=
  List.append_cancel_left (h.exchanged.taken.symm.trans hs)

/-- A request that was answered closes its file, once the file is forgotten. -/
theorem Answered.closes (h : Answered (Ask.closing descriptor) rest s t) (hkeeps : Keeps s t)
    (hs : s.Ready) (hp : p.IsReply) (hunread : s.unread = p.toBytes ++ rest) :
    Closes [descriptor] [p] s { t with openFiles := t.openFiles.erase descriptor } where
  exchanged :=
    { length := rfl
      isReply := by simpa using hp
      sent := h.sent.trans (by simp [Ask.numbered])
      taken := by
        rw [hunread, Packet.bytesOf_cons, Packet.bytesOf_nil, List.append_nil, ← h.unread]
        rfl
      next := h.number
      wasAble := fun _ => hs.canSend
      canSend := fun _ => hs.canSend }
  openFiles := by rw [hkeeps.openFiles, List.diff_cons, List.diff_nil]
  connection := hkeeps.connection
  ready := ⟨(h.ready hs).isOpen, (h.ready hs).allowance⟩

/-- A file is closed with one request and forgotten, whatever the reply to it is. -/
theorem ends_closeDescriptor (hs : s.Ready) (hp : p.IsReply)
    (hunread : s.unread = p.toBytes ++ rest) (descriptor : UInt64) :
    (closeDescriptor descriptor).Ends s
      (fun _ t => answer p = .ok p ∧ Closes [descriptor] [p] s t)
      (fun h t => ∃ e, h = .failed e ∧ answer p = .error e ∧ Closes [descriptor] [p] s t) := by
  rw [closeDescriptor, Call.ends_bind]
  refine ((ends_attempt_request (Ask.closing descriptor) hp hunread).and
    ((keeps_request _ _ _).attempt s)).mono ?_ fun _ _ h => h.1.elim
  rintro r t ⟨⟨rfl, h⟩ | ⟨e, rfl, -, h⟩, hkeeps⟩
  · have hclosed := h.closes hkeeps hs hp hunread
    rw [Call.ends_bind, Call.ends_modify]
    -- It is forgotten before it is known what the reply says.
    rcases hanswer : answer p with e | q
    · exact ⟨e, rfl, rfl, hclosed⟩
    · obtain rfl := eq_of_answer hanswer
      exact ⟨rfl, hclosed⟩
  · exact absurd hs h.wasUnable

/-- The first of the replies that stands for a failure is the `n`-th, and it stands for this. -/
structure FailsFirst (ps : List Packet) (n : Nat) (e : DeviceError) : Prop where
  before : ∀ p ∈ ps.take n, answer p = .ok p
  here : ∃ p, ps[n]? = some p ∧ answer p = .error e

theorem FailsFirst.zero {e : DeviceError} (h : answer p = .error e) : FailsFirst (p :: ps) 0 e :=
  ⟨by simp, p, rfl, h⟩

theorem FailsFirst.succ {e : DeviceError} {n : Nat} (hp : answer p = .ok p)
    (h : FailsFirst ps n e) : FailsFirst (p :: ps) (n + 1) e :=
  ⟨by simpa using ⟨hp, h.before⟩, h.here⟩

/-- Files are closed one after the other, up to the first failure. -/
theorem ends_closeDescriptors (hs : s.Ready) (hps : ∀ p ∈ ps, p.IsReply)
    (hlength : ps.length = ds.length) (hunread : s.unread = bytesOf ps ++ rest) :
    (ds.forM closeDescriptor).Ends s
      (fun _ t => (∀ p ∈ ps, answer p = .ok p) ∧ Closes ds ps s t)
      (fun h t => ∃ n e, h = .failed e ∧ FailsFirst ps n e ∧
        Closes (ds.take (n + 1)) (ps.take (n + 1)) s t) := by
  induction ds generalizing s ps with
  | nil =>
    obtain rfl := List.length_eq_zero_iff.1 hlength
    exact ⟨List.forall_mem_nil _, .nil hs⟩
  | cons descriptor ds ih =>
    obtain ⟨p, ps, rfl⟩ := List.exists_cons_of_length_eq_add_one hlength
    obtain ⟨hp, hps⟩ := List.forall_mem_cons.1 hps
    rw [Packet.bytesOf_cons, List.append_assoc] at hunread
    rw [List.forM, Call.ends_bind]
    refine (ends_closeDescriptor hs hp hunread descriptor).mono ?_ ?_
    -- The induction goes on with the other files only behind a reply that is no failure.
    · rintro _ t ⟨hanswer, h⟩
      have ht : t.unread = bytesOf ps ++ rest := h.unread (by simpa using hunread)
      refine (ih h.ready hps (by simpa using hlength) ht).mono ?_ ?_
      · rintro _ u ⟨hanswers, h'⟩
        exact ⟨List.forall_mem_cons.2 ⟨hanswer, hanswers⟩, h.cons h'⟩
      · rintro _ u ⟨n, e, rfl, hfails, h'⟩
        exact ⟨n + 1, e, rfl, hfails.succ hanswer, h.cons h'⟩
    · rintro _ t ⟨e, rfl, hanswer, h⟩
      exact ⟨0, e, rfl, .zero hanswer, h⟩

/-! ### Closing the client -/

/-- From `s` to `t` each file that was open was closed with one request, in some order, and the
connection was shut down. -/
structure Released (s t : Client) : Prop where
  sent : ∃ ds : List UInt64, ds.Perm s.openFiles ∧
    t.sent = s.sent ++ bytesOf (Ask.numbered s.nextNumber (ds.map Ask.closing))
  isOpen : t.connection.isOpen = false
  isShut : t.connection.transport.isShut

/-- From `s` to `t` the first `n` of the files were closed, with one request for each. The others
are still open, and so is the connection, which was not shut down. -/
structure LeftOpen (n : Nat) (s t : Client) : Prop where
  sent : t.sent = s.sent ++
    bytesOf (Ask.numbered s.nextNumber ((s.openFiles.take n).map Ask.closing))
  openFiles : t.openFiles = s.openFiles.drop n
  isOpen : t.connection.isOpen
  isShut : t.connection.transport.isShut = s.connection.transport.isShut

/-- To forget the first files leaves the others. -/
theorem diff_take (ds : List UInt64) (n : Nat) : ds.diff (ds.take n) = ds.drop n := by
  induction ds generalizing n with
  | nil => simp
  | cons d ds ih =>
    cases n with
    | zero => rfl
    | succ n =>
      rw [List.take_succ_cons, List.diff_cons, List.erase_cons_head, ih, List.drop_succ_cons]

theorem Closes.leftOpen {n : Nat} (h : Closes (s.openFiles.take n) ps s t) : LeftOpen n s t where
  sent := h.exchanged.sent
  openFiles := h.openFiles.trans (diff_take _ n)
  isOpen := h.ready.isOpen
  isShut := h.connection.transport.isShut

/-- Closing a client releases all that it holds just where no reply stands for a failure. The
first one that does ends the closing right there. -/
theorem closes_until_failure (hs : s.Ready)
    (hshut : s.connection.transport.shutFault = none) (hps : ∀ p ∈ ps, p.IsReply)
    (hlength : ps.length = s.openFiles.length) (hunread : s.unread = bytesOf ps ++ rest) :
    close.Ends s
      (fun n t => (∀ p ∈ ps, answer p = .ok p) ∧ n = s.openFiles.length ∧ Released s t ∧
        t.openFiles = [] ∧ t.unread = rest)
      (fun h t => ∃ n e, h = .failed e ∧ FailsFirst ps n e ∧ LeftOpen (n + 1) s t ∧
        t.unread = bytesOf (ps.drop (n + 1)) ++ rest) := by
  rw [close, Call.ends_bind, Call.ends_get, Call.ends_bind]
  refine (ends_closeDescriptors hs hps hlength hunread).mono ?_ ?_
  · rintro _ t ⟨hanswers, h⟩
    have hnone : t.connection.transport.shutFault = none :=
      h.connection.transport.shutFault.trans hshut
    rw [Call.ends_bind, onConnection, Call.ends_zoom]
    refine (Connection.ends_close_open h.ready.isOpen).mono ?_ ?_
    · rintro _ _ ⟨-, rfl⟩
      refine ⟨hanswers, rfl, ⟨⟨s.openFiles, .refl _, h.exchanged.sent⟩, rfl, rfl⟩, ?_,
        h.unread hunread⟩
      rw [h.openFiles]
      simpa using diff_take s.openFiles s.openFiles.length
    · rintro _ _ ⟨fault, hfault, -⟩
      cases hnone.symm.trans hfault
  · rintro _ t ⟨n, e, rfl, hfails, h⟩
    refine ⟨n, e, rfl, hfails, h.leftOpen, h.unread ?_⟩
    rw [hunread, ← List.append_assoc, ← Packet.bytesOf_append, List.take_append_drop]

/-- The device refuses to close a file. -/
def refusal : Packet :=
  .make .status 0 (Bytes.ofNatLE 8 10) []

/-- A failure for the first of two files, and a success for the second. -/
def refusing : List Packet :=
  [refusal, .make .status 1 (Bytes.ofNatLE 8 0) []]

/-- A client with two open files, of which the device refuses to close the first. -/
def stranded : Client :=
  { quiet.hear (bytesOf refusing) with openFiles := [7, 8] }

theorem isReply_refusing : ∀ p ∈ refusing, p.IsReply :=
  List.forall_mem_cons.2 ⟨Packet.isReply_make (by decide),
    List.forall_mem_singleton.2 (Packet.isReply_make (by decide))⟩

theorem answer_refusal : answer refusal = .error (.afc .permissionDenied) :=
  rfl

theorem closes_until_failure_stranded :
    stranded.Ready ∧ stranded.connection.transport.shutFault = none ∧
      (∀ p ∈ refusing, p.IsReply) ∧ refusing.length = stranded.openFiles.length ∧
      stranded.unread = bytesOf refusing ++ [] ∧
    close.Ends stranded (fun _ _ => False)
      (fun h t => h = .failed (.afc .permissionDenied) ∧ LeftOpen 1 stranded t ∧
        t.openFiles = [8]) := by
  have hready : stranded.Ready := ⟨rfl, rfl⟩
  have hunread : stranded.unread = bytesOf refusing ++ [] := (List.append_nil _).symm
  refine ⟨hready, rfl, isReply_refusing, rfl, hunread,
    (closes_until_failure hready rfl isReply_refusing rfl hunread).mono ?_ ?_⟩
  · rintro _ t ⟨hanswers, -⟩
    cases answer_refusal.symm.trans (hanswers refusal List.mem_cons_self)
  · rintro _ t ⟨n, e, rfl, ⟨hbefore, p, hp, he⟩, hleft, -⟩
    rcases n with _ | n
    · obtain rfl := Option.some.inj hp
      obtain rfl := Except.error.inj (answer_refusal.symm.trans he)
      exact ⟨rfl, hleft, hleft.openFiles⟩
    · cases answer_refusal.symm.trans (hbefore refusal (by simp [refusing]))

/-- Neither the second file nor the connection is closed where the device refuses the first. -/
theorem not_released_stranded :
    ¬ ∀ (s : Client) (ps : List Packet), s.Ready → s.openFiles.Nodup →
      s.connection.transport.shutFault = none → (∀ p ∈ ps, p.IsReply) →
      ps.length = s.openFiles.length → s.unread = bytesOf ps → Released s (close.state s) := by
  intro h
  have hreleased := h stranded refusing ⟨rfl, rfl⟩ (by decide) rfl isReply_refusing rfl rfl
  have hopen : (close.state stranded).connection.isOpen = true := by decide +kernel
  rw [hreleased.isOpen] at hopen
  cases hopen

end Client

end Afc

end Tether
