import Tether.Proofs.Call

/-!
# Reading and writing on a transport

What becomes of the bytes where a call on a transport fails. A read that finds less than it is to
read takes all of it. A write that the transport does not take whole is cut off, and after it
nothing more is written. Reading and writing leave alone all else that there is to a transport.

* `readExact_eq_of_lt`: a read of more than there is;
* `ends_writeAll_exact`: a write, with its two ends;
* `reads_readMore`, `writes_writeAll`: what reading and writing change;
* `ends_writeAll_took`: what a write takes, and where it is cut off.
-/

namespace Tether

/-- What a read comes to where more is to be read than there is. -/
def Ending.halt : Ending → Halt Fault
  | closed => .failed .unexpectedEof
  | silent => .waiting
  | broken fault => .failed fault

end Tether

namespace Tether.Transport

variable {t : Transport} {bs : Bytes}

/-- The bytes at the front are read, however many they are and however they arrive. -/
theorem readExact_of_append {n : Nat} {rest : Bytes} (h : t.unread = bs ++ rest)
    (hn : bs.length = n) :
    ∃ reads, readExact n t = .ok bs { t with unread := rest, reads := reads } := by
  obtain ⟨reads, hr⟩ := readExact_of_le (n := n) (t := t) (by rw [h, List.length_append]; omega)
  rw [h, List.take_left' hn, List.drop_left' hn] at hr
  exact ⟨reads, hr⟩

/-- Where less has arrived than is to be read, all of it is lost. -/
theorem readMore_of_lt (fuel n : Nat) (seen : Bytes) (t : Transport) (hf : n ≤ fuel)
    (h : t.unread.length < n) :
    ∃ reads, readMore fuel n seen t = .error t.ending.halt { t with unread := [], reads := reads } := by
  induction fuel generalizing n seen t with
  | zero => omega
  | succ fuel ih =>
    have hn : n ≠ 0 := by omega
    by_cases hu : t.unread = []
    · have ht : t = { t with unread := [], reads := t.reads } := by
        cases t
        simpa using hu
      refine ⟨t.reads, Eq.trans ?_ (congrArg _ ht)⟩
      cases he : t.ending <;>
        simp [readMore, read, hn, hu, he, bind, EStateM.bind, Ending.halt, Call.fail, throw,
          throwThe, MonadExceptOf.throw, EStateM.throw]
    · have hb := t.readBound_pos (show 0 < n by omega)
      have hpos : 0 < t.unread.length := List.length_pos_iff.2 hu
      have hlen : (t.unread.take (t.readBound n)).length = min (t.readBound n) t.unread.length :=
        List.length_take
      have hne : (t.unread.take (t.readBound n)).isEmpty = false := by
        rw [List.isEmpty_eq_false_iff, ← List.length_pos_iff]
        omega
      have hread : read n t = .ok (t.unread.take (t.readBound n))
          { t with unread := t.unread.drop (t.readBound n), reads := t.reads + 1 } := by
        simp [read, hn, hu]
      obtain ⟨reads, hr⟩ := ih (n - (t.unread.take (t.readBound n)).length)
        ((t.unread.take (t.readBound n)).reverse ++ seen)
        { t with unread := t.unread.drop (t.readBound n), reads := t.reads + 1 }
        (by omega) (by simp only [List.length_drop]; omega)
      refine ⟨reads, ?_⟩
      simp only [readMore, hn, if_false, bind, EStateM.bind, hread, hne, Bool.false_eq_true, hr]

theorem readExact_eq_of_lt {n : Nat} {t : Transport} (h : t.unread.length < n) :
    ∃ reads, readExact n t = .error t.ending.halt { t with unread := [], reads := reads } :=
  readMore_of_lt n n [] t (Nat.le_refl n) h

theorem readExact_of_lt {n : Nat} {t : Transport} (h : t.unread.length < n) :
    ∃ halt reads, readExact n t = .error halt { t with unread := [], reads := reads } :=
  ⟨t.ending.halt, readExact_eq_of_lt h⟩

/-- No more bytes are accepted. -/
def IsSpent (t : Transport) : Prop :=
  ∃ fault, t.allowance = some (0, fault)

/-- A write that there is room for adds its bytes. Another one fails, and adds as many as there is
room for. -/
theorem ends_writeAll_exact (hne : bs ≠ []) (t : Transport) :
    (writeAll bs).Ends t
      (fun _ u => (∀ left fault, t.allowance = some (left, fault) → bs.length ≤ left) ∧ u = { t with
        written := t.written ++ [bs]
        allowance := t.allowance.map fun room => (room.1 - bs.length, room.2) })
      (fun h u => ∃ left fault, h = .failed fault ∧ left < bs.length ∧
        t.allowance = some (left, fault) ∧ u = { t with
          written := t.written ++ if left = 0 then [] else [bs.take left]
          allowance := some (0, fault) }) := by
  rw [Call.Ends, writeAll, if_neg (by simpa using hne)]
  rcases hallowance : t.allowance with - | ⟨left, fault⟩
  · exact ⟨fun left fault h => (Option.some_ne_none _ h.symm).elim,
      by rw [Option.map_none, ← hallowance]⟩
  · dsimp only
    by_cases hleft : bs.length ≤ left
    · rw [if_pos hleft]
      refine ⟨fun left' fault' h => ?_, rfl⟩
      cases h
      exact hleft
    · rw [if_neg hleft]
      refine ⟨left, fault, rfl, Nat.lt_of_not_le hleft, rfl, ?_⟩
      by_cases hzero : left = 0 <;> simp [hzero]

/-- A write adds its bytes, or fails and adds some of them; then the transport is spent. -/
theorem ends_writeAll (hne : bs ≠ []) :
    (writeAll bs).Ends t
      (fun _ u => u.unread = t.unread ∧ u.written = t.written ++ [bs] ∧ ¬ t.IsSpent)
      (fun _ u => u.unread = t.unread ∧ u.IsSpent ∧
        (u.written = t.written ∨ ∃ n, u.written = t.written ++ [bs.take n])) := by
  have hpos : 0 < bs.length := List.length_pos_of_ne_nil hne
  refine (ends_writeAll_exact hne t).mono ?_ ?_
  · rintro _ _ ⟨hroom, rfl⟩
    refine ⟨rfl, rfl, ?_⟩
    rintro ⟨fault, hspent⟩
    exact absurd (hroom 0 fault hspent) (Nat.not_le.2 hpos)
  · rintro _ _ ⟨left, fault, -, -, -, rfl⟩
    refine ⟨rfl, ⟨fault, rfl⟩, ?_⟩
    by_cases hzero : left = 0
    · exact .inl (by simp [hzero])
    · exact .inr ⟨left, by simp [hzero]⟩

/-! ### What does not change -/

/-- From `t` to `u` there was reading only. -/
def Reads (t u : Transport) : Prop :=
  ∃ rest reads, rest.length ≤ t.unread.length ∧ u = { t with unread := rest, reads := reads }

/-- From `t` to `u` there was writing only. -/
def Writes (t u : Transport) : Prop :=
  ∃ written allowance, u = { t with written := written, allowance := allowance }

instance isPreorder_reads : IsPreorder Transport Reads where
  refl t := ⟨t.unread, t.reads, Nat.le_refl _, rfl⟩
  trans := by
    rintro t _ _ ⟨rest, reads, hle, rfl⟩ ⟨rest', reads', hle', rfl⟩
    exact ⟨rest', reads', Nat.le_trans hle' hle, rfl⟩

instance isPreorder_writes : IsPreorder Transport Writes where
  refl t := ⟨t.written, t.allowance, rfl⟩
  trans := by
    rintro t _ _ ⟨written, allowance, rfl⟩ ⟨written', allowance', rfl⟩
    exact ⟨written', allowance', rfl⟩

theorem reads_read (most : Nat) : Call.Respects Reads (read most) := by
  intro t
  unfold Call.Ends read
  by_cases hm : most = 0
  · simpa only [hm, if_true] using refl_of Reads t
  · rw [if_neg hm]
    by_cases hu : t.unread.isEmpty
    · rw [if_pos hu]
      cases t.ending <;> exact refl_of Reads t
    · rw [if_neg hu]
      exact ⟨_, _, by rw [List.length_drop]; omega, rfl⟩

theorem reads_readMore (fuel n : Nat) (seen : Bytes) :
    Call.Respects Reads (readMore fuel n seen) := by
  induction fuel generalizing n seen with
  | zero => exact .pure _
  | succ fuel ih =>
    unfold readMore
    split
    · exact .pure _
    · refine (reads_read n).bind fun bs => ?_
      split
      · exact .fail _
      · exact ih _ _

theorem writes_writeAll (bs : Bytes) : Call.Respects Writes (writeAll bs) := by
  intro t
  by_cases hne : bs = []
  · subst hne
    exact ⟨t.written, t.allowance, rfl⟩
  · refine (ends_writeAll_exact hne t).mono ?_ ?_
    · rintro _ _ ⟨-, rfl⟩
      exact ⟨_, _, rfl⟩
    · rintro _ _ ⟨left, fault, -, -, -, rfl⟩
      exact ⟨_, _, rfl⟩

/-! ### How much is written -/

section Took

variable {bs' : Bytes} {u v : Transport} {fault : Fault}

/-- From `t` to `u` these bytes were written, and nothing else was done. -/
structure Took (bs : Bytes) (t u : Transport) : Prop where
  writes : Writes t u
  sent : u.sent = t.sent ++ bs
  allowance : t.allowance = u.allowance.map fun room => (bs.length + room.1, room.2)

/-- From `t` to `u` as many of these bytes were written as there was room for. -/
structure CutOff (bs : Bytes) (fault : Fault) (t u : Transport) : Prop where
  writes : Writes t u
  cut : ∃ n, n < bs.length ∧ t.allowance = some (n, fault) ∧ u.sent = t.sent ++ bs.take n

theorem Took.trans (h : Took bs t u) (h' : Took bs' u v) : Took (bs ++ bs') t v where
  writes := trans_of Writes h.writes h'.writes
  sent := by rw [h'.sent, h.sent, List.append_assoc]
  allowance := by
    rw [h.allowance, h'.allowance, Option.map_map, List.length_append]
    simp only [Function.comp_def, Nat.add_assoc]

theorem Took.cutOff (h : Took bs t u) (h' : CutOff bs' fault u v) :
    CutOff (bs ++ bs') fault t v where
  writes := trans_of Writes h.writes h'.writes
  cut := by
    obtain ⟨n, hn, hallowance, hsent⟩ := h'.cut
    refine ⟨bs.length + n, by rw [List.length_append]; omega, ?_, ?_⟩
    · rw [h.allowance, hallowance]
      rfl
    · rw [hsent, h.sent, List.take_length_add_append, List.append_assoc]

theorem CutOff.append (h : CutOff bs fault t u) (bs' : Bytes) : CutOff (bs ++ bs') fault t u where
  writes := h.writes
  cut := by
    obtain ⟨n, hn, hallowance, hsent⟩ := h.cut
    refine ⟨n, by rw [List.length_append]; omega, hallowance, ?_⟩
    rw [hsent, List.take_append_of_le_length hn.le]

theorem ends_writeAll_took (bs : Bytes) (t : Transport) :
    (writeAll bs).Ends t (fun _ u => Took bs t u)
      (fun h u => ∃ fault, h = .failed fault ∧ CutOff bs fault t u) := by
  by_cases hne : bs = []
  · -- Writing nothing does not fail, even where nothing can be written.
    subst hne
    exact ⟨refl_of Writes t, by simp, by simp⟩
  · refine (ends_writeAll_exact hne t).mono ?_ ?_
    · rintro _ _ ⟨hroom, rfl⟩
      refine ⟨⟨_, _, rfl⟩, by simp [sent], ?_⟩
      rcases hallowance : t.allowance with - | ⟨left, fault⟩
      · rfl
      · have hle := hroom left fault hallowance
        rw [Option.map_some, Option.map_some, Nat.add_sub_of_le hle]
    · rintro _ _ ⟨left, fault, rfl, hleft, hallowance, rfl⟩
      refine ⟨fault, rfl, ⟨_, _, rfl⟩, left, hleft, hallowance, ?_⟩
      by_cases hzero : left = 0 <;> simp [hzero, sent]

/-- What is written piece by piece is taken as a whole, or cut off somewhere in it. -/
theorem ends_forM_writeAll (ps : List Bytes) (t : Transport) :
    (ps.forM writeAll).Ends t (fun _ u => Took ps.flatten t u)
      (fun h u => ∃ fault, h = .failed fault ∧ CutOff ps.flatten fault t u) := by
  induction ps generalizing t with
  | nil => exact ends_writeAll_took [] t
  | cons p ps ih =>
    rw [List.forM, Call.ends_bind, List.flatten_cons]
    refine (ends_writeAll_took p t).mono ?_ ?_
    · intro _ u hu
      refine (ih u).mono (fun _ v hv => hu.trans hv) ?_
      rintro _ v ⟨fault, rfl, hv⟩
      exact ⟨fault, rfl, hu.cutOff hv⟩
    · rintro _ u ⟨fault, rfl, hu⟩
      exact ⟨fault, rfl, hu.append _⟩

end Took

/-- From `t` to `u` the stream was not shut down, nor does shutting it down come to something
else. -/
structure KeepsShut (t u : Transport) : Prop where
  isShut : u.isShut = t.isShut
  shutFault : u.shutFault = t.shutFault

instance isPreorder_keepsShut : IsPreorder Transport KeepsShut where
  refl _ := ⟨rfl, rfl⟩
  trans _ _ _ h h' := ⟨h'.isShut.trans h.isShut, h'.shutFault.trans h.shutFault⟩

theorem keepsShut_readExact (n : Nat) : Call.Respects KeepsShut (readExact n) := by
  refine (reads_readMore n n []).mono ?_
  rintro t _ ⟨rest, reads, -, rfl⟩
  exact ⟨rfl, rfl⟩

theorem keepsShut_writeAll (bs : Bytes) : Call.Respects KeepsShut (writeAll bs) := by
  refine (writes_writeAll bs).mono ?_
  rintro t _ ⟨written, allowance, rfl⟩
  exact ⟨rfl, rfl⟩

end Tether.Transport
