import IQzip.FieldSetters

/-! # Setters that overwrite, setters that stay in their field

Two laws a setter should obey, from every state of the bytes. Setting a field twice should leave
what the second call alone leaves (`overwrites_iff`): the setters that OR keep the bits of the first
call. Setting a field should change no other (`isolated_iff`): one setter shifts its argument
without masking it. -/

namespace IQzip

open Library

/-- Widening a byte loses nothing. -/
theorem setWidth_injective {a b : U8} (h : a.setWidth 16 = (b.setWidth 16 : U16)) : a = b := by
  have hback := congrArg (fun x : U16 => x.setWidth 8) h
  simpa using hback

/-- An array is known by its cells. -/
theorem eq_iff_get_eq {n : Nat} {a b : Vector U8 n} : a = b ↔ ∀ i, a.get i = b.get i := by
  constructor
  · intro h i
    rw [h]
  · intro h
    apply Vector.ext
    intro i hi
    exact h ⟨i, hi⟩

/-! ## Setting a field twice -/

namespace PrimaryHeaderCall

/-- The bits of the call that stay when its setter is called again: those it ORs into a byte. -/
def lasting (f : PrimaryHeaderCall) (i : Fin 6) : U8 := (f.write i).lasting

open ArrayWrite in
/-- Two calls of one setter keep the same bits. -/
theorem write_keep {f g : PrimaryHeaderCall} (hfg : f.field = g.field) (i : Fin 6) :
    (f.write i).keep = (g.write i).keep := by
  -- calls of different setters are out first: there are many of them
  cases f <;> cases g <;>
    first
    | (cases hfg; done)
    | exact keep_single (by rfl) i
    | exact keep_pair (by rfl) (by rfl) i

/-- **Setting a field of a primary header twice** leaves what the second call alone leaves exactly
when every bit the first call ORs in was set before or is ORed in by the second. -/
theorem overwrites {f g : PrimaryHeaderCall} (hfg : f.field = g.field)
    (h : CcsdsPacketPrimaryHeader) :
    (g.run (f.run h)).dPrimaryHeader = (g.run h).dPrimaryHeader
      ↔ ∀ i, Within (f.lasting i) (h.dPrimaryHeader.get i ||| g.lasting i) := by
  rw [eq_iff_get_eq]
  refine forall_congr' ?_
  intro i
  rw [get_run, get_run, get_run, MaskedWrite.apply_apply_eq_iff (write_keep hfg i)]
  rfl

end PrimaryHeaderCall

namespace PacketCall

/-- Two calls of one setter. -/
def SameSetter (s t : PacketCall) : Prop := s.ctorIdx = t.ctorIdx

instance (s t : PacketCall) : Decidable (s.SameSetter t) := inferInstanceAs (Decidable (_ = _))

instance (s : PacketCall) : Decidable s.Accepted := by
  cases s <;> unfold Accepted <;> infer_instance

/-- The bits of the call that stay when its setter is called again: those it ORs into a byte. -/
def lasting (s : PacketCall) (j : PacketByte) : U8 := (s.write j).lasting

/-- An accepted CDS count is written. -/
theorem write_cdsNum {v : U16} (hv : (entropyCoderCdsNum v).Accepted) :
    (entropyCoderCdsNum v).write
      = .pair (.entropyCoder 0) (.mark ((v >>> 8 &&& entropyCoderCdsesNumMask >>> 8).setWidth 8))
          (.entropyCoder 1) (.assign (v.setWidth 8)) :=
  if_pos hv

open ArrayWrite in
/-- Two accepted calls of one setter keep the same bits. -/
theorem write_keep {s t : PacketCall} (hst : s.SameSetter t) (hs : s.Accepted) (ht : t.Accepted)
    (j : PacketByte) : (s.write j).keep = (t.write j).keep := by
  cases s <;> cases t <;>
    first
    | (cases hst; done)
    | exact keep_single (by rfl) j
    | exact keep_pair (by rfl) (by rfl) j
    | (rw [write_cdsNum hs, write_cdsNum ht]; exact keep_pair (by rfl) (by rfl) j)

/-- A packet is known by its bytes. -/
theorem byte_ext_iff (c c' : CompressionIdentificationPacket) :
    (c.dSourceDataFixed = c'.dSourceDataFixed ∧ c.dSourceDataVariable = c'.dSourceDataVariable)
      ↔ ∀ j, c.byte j = c'.byte j := by
  constructor
  · rintro ⟨hfixed, hvariable⟩ j
    cases j <;> simp only [CompressionIdentificationPacket.byte, hfixed, hvariable]
  · intro heq
    refine ⟨eq_iff_get_eq.mpr fun i => heq (.fixed i), ?_⟩
    have hinstrument := congrArg (fun b : U8 => b.setWidth 2) (heq .instrumentConfigHeader)
    have hback : ∀ x : BitVec 2, (x.setWidth 8).setWidth 2 = x := by decide
    simp only [CompressionIdentificationPacket.byte, hback] at hinstrument
    exact SourceDataVariable.mk.injEq .. ▸
      ⟨eq_iff_get_eq.mpr fun i => heq (.preprocessor i),
        eq_iff_get_eq.mpr fun i => heq (.entropyCoder i),
        eq_iff_get_eq.mpr fun i => heq (.extendedParameters i), hinstrument⟩

/-- **Setting a field of a packet twice**, with values that the setter does not call invalid. -/
theorem overwrites {s t : PacketCall} (hst : s.SameSetter t) (hs : s.Accepted) (ht : t.Accepted)
    (c : CompressionIdentificationPacket) :
    ((t.run (s.run c)).dSourceDataFixed = (t.run c).dSourceDataFixed
        ∧ (t.run (s.run c)).dSourceDataVariable = (t.run c).dSourceDataVariable)
      ↔ ∀ j, Within (s.lasting j) (c.byte j ||| t.lasting j) := by
  rw [byte_ext_iff]
  refine forall_congr' ?_
  intro j
  rw [byte_run, byte_run, byte_run, MaskedWrite.apply_apply_eq_iff (write_keep hst hs ht j)]
  rfl

end PacketCall

/-- **Setting a field overwrites it exactly when the first call leaves no bit behind.** From every
state of the bytes, and for two calls of one setter with values that it does not call invalid: the
second call leaves what it leaves alone if and only if every bit that the first ORs into a byte was
set there before or is ORed in by the second. Setters that only assign OR nothing in. -/
theorem overwrites_iff (h : CcsdsPacketPrimaryHeader) (c : CompressionIdentificationPacket) :
    (∀ f g : PrimaryHeaderCall, f.field = g.field →
        ((g.run (f.run h)).dPrimaryHeader = (g.run h).dPrimaryHeader
          ↔ ∀ i, Within (f.lasting i) (h.dPrimaryHeader.get i ||| g.lasting i)))
      ∧ ∀ s t : PacketCall, s.SameSetter t → s.Accepted → t.Accepted →
          (((t.run (s.run c)).dSourceDataFixed = (t.run c).dSourceDataFixed
              ∧ (t.run (s.run c)).dSourceDataVariable = (t.run c).dSourceDataVariable)
            ↔ ∀ j, Within (s.lasting j) (c.byte j ||| t.lasting j)) := by
  constructor
  · intro f g hfg
    exact PrimaryHeaderCall.overwrites hfg h
  · intro s t hst hs ht
    exact PacketCall.overwrites hst hs ht c

/-- The default-constructed primary header on zeroed storage. -/
def zeroedPrimaryHeader : CcsdsPacketPrimaryHeader :=
  CcsdsPacketPrimaryHeader.default HeaderStorage.zero.primaryHeader

/-- The default-constructed packet on zeroed storage. -/
def zeroedPacket : CompressionIdentificationPacket :=
  CompressionIdentificationPacket.default HeaderStorage.zero.sourceDataFixed
    HeaderStorage.zero.sourceDataVariable

/-- A version whose bits are among those of the next one leaves no trace, and neither does any
technique id. -/
theorem overwrites_subset :
    ((PrimaryHeaderCall.version 3).run
          ((PrimaryHeaderCall.version 1).run zeroedPrimaryHeader)).dPrimaryHeader
        = ((PrimaryHeaderCall.version 3).run zeroedPrimaryHeader).dPrimaryHeader
      ∧ ((PacketCall.compressionTechniqueId 1).run
          ((PacketCall.compressionTechniqueId 6).run zeroedPacket)).dSourceDataFixed
        = ((PacketCall.compressionTechniqueId 1).run zeroedPacket).dSourceDataFixed :=
  ⟨((overwrites_iff zeroedPrimaryHeader zeroedPacket).1 (.version 1) (.version 3) rfl).mpr
      (by decide),
    (((overwrites_iff zeroedPrimaryHeader zeroedPacket).2 (.compressionTechniqueId 6)
      (.compressionTechniqueId 1) rfl trivial trivial).mpr (by
        intro j
        rw [PacketCall.lasting, PacketCall.write, ArrayWrite.lasting_single_assign]
        exact within_zero _)).1⟩

/-- **A version that is set again stays.** Version 7, then version 0, leave the three bits
of 7. -/
theorem overwrites_version :
    ((PrimaryHeaderCall.version 0).run
          ((PrimaryHeaderCall.version 7).run zeroedPrimaryHeader)).dPrimaryHeader
        = bytes6 0xe0 0 0 0 0 0
      ∧ ((PrimaryHeaderCall.version 0).run
          ((PrimaryHeaderCall.version 7).run zeroedPrimaryHeader)).dPrimaryHeader
        ≠ ((PrimaryHeaderCall.version 0).run zeroedPrimaryHeader).dPrimaryHeader := by
  decide

/-! ## Setting a field among others -/

namespace PrimaryHeaderCall

/-- The bits of the call that land outside the field: a flag above 1 reaches the type and the
version. -/
def spill : PrimaryHeaderCall → U8
  | .secondaryHeaderFlag v => (v <<< 3) &&& 0xf0
  | _ => 0

/-- **The setters that stay in their field.** -/
theorem decode_run {f : PrimaryHeaderCall} (hflag : f.field ≠ .secondaryHeaderFlag)
    {g : PrimaryHeaderField} (hg : g ≠ f.field) (h : CcsdsPacketPrimaryHeader) :
    g.decode (f.run h) = g.decode h := by
  apply g.decode_congr
  intro i
  rw [get_run]
  exact MaskedWrite.and_apply_of_staysIn (write_staysIn hflag i)
    (PrimaryHeaderField.reads_disjoint hg.symm i) _

/-- What the other getters see of a shifted flag is what it spills. -/
theorem flag_read_within (v : U8) {g : PrimaryHeaderField} (hg : g ≠ .secondaryHeaderFlag) :
    Within ((v <<< 3) &&& g.reads 0) ((v <<< 3) &&& 0xf0) := by
  revert v
  cases g <;> first | exact absurd rfl hg | decide

section SecondaryHeaderFlag

open CcsdsPacketPrimaryHeader

variable (h : CcsdsPacketPrimaryHeader) (v : U8)

/-- A field of byte 0 before and after, through its bits. -/
theorem decode_eq_iff {g : PrimaryHeaderField} (field : BitField 8)
    (hread : ∀ h : CcsdsPacketPrimaryHeader,
      g.decode h = (field.get (h.dPrimaryHeader.get 0)).setWidth 16)
    (h h' : CcsdsPacketPrimaryHeader) :
    g.decode h' = g.decode h
      ↔ h'.dPrimaryHeader.get 0 &&& field.mask = h.dPrimaryHeader.get 0 &&& field.mask := by
  rw [hread h, hread h', ← BitField.get_eq_get_iff]
  constructor
  · intro heq
    exact setWidth_injective heq
  · intro heq
    rw [heq]

/-- **The setter that does not mask** changes no other field exactly when what it spills is set
already. -/
theorem decode_run_flag_iff :
    (∀ g, g ≠ PrimaryHeaderField.secondaryHeaderFlag →
        g.decode ((secondaryHeaderFlag v).run h) = g.decode h)
      ↔ Within ((v <<< 3) &&& 0xf0) (h.dPrimaryHeader.get 0) := by
  have hbyte : ((secondaryHeaderFlag v).run h).dPrimaryHeader.get 0
      = (MaskedWrite.mark (v <<< 3)).apply (h.dPrimaryHeader.get 0) := get_run h _ 0
  constructor
  · intro hkeeps
    have hversion := (decode_eq_iff versionField (fun _ => rfl) h _).mp
      (hkeeps .version (by decide))
    have htype := (decode_eq_iff typeField (fun _ => rfl) h _).mp (hkeeps .type (by decide))
    rw [hbyte, MaskedWrite.and_apply_mark_iff] at hversion htype
    -- the high half of the byte is the version and the type
    rw [show (0xf0 : U8) = versionField.mask ||| typeField.mask from rfl,
      BitVec.and_or_distrib_left, within_or_iff]
    exact ⟨hversion, htype⟩
  · intro hspill g hg
    apply g.decode_congr
    intro i
    by_cases hi : 0 = i
    · subst hi
      rw [hbyte, MaskedWrite.and_apply_mark_iff]
      exact (flag_read_within v hg).trans hspill
    · rw [get_run, write, ArrayWrite.single, if_neg hi, MaskedWrite.apply_idle]

end SecondaryHeaderFlag

end PrimaryHeaderCall

/-- **No setter of a packet changes another field**, whatever its argument. -/
theorem PacketCall.decode_run {s : PacketCall} {g : PacketField} (hg : s.field ≠ some g)
    (c : CompressionIdentificationPacket) : g.decode (s.run c) = g.decode c := by
  apply g.decode_congr
  intro j
  rw [byte_run]
  exact MaskedWrite.and_apply_of_staysIn (s.write_staysIn j) (PacketField.touches_disjoint hg j) _

/-- **Fields are isolated but for what a secondary header flag spills.** From every state of the
bytes and for every argument: a setter of the primary header leaves every other field as it was if
and only if the bits that spill out of its field were set before, and only a secondary header flag
above 1 spills; a setter of the packet always does. -/
theorem isolated_iff (h : CcsdsPacketPrimaryHeader) (c : CompressionIdentificationPacket) :
    (∀ f : PrimaryHeaderCall, (∀ g, g ≠ f.field → g.decode (f.run h) = g.decode h)
        ↔ Within f.spill (h.dPrimaryHeader.get 0))
      ∧ ∀ (s : PacketCall) (g : PacketField), s.field ≠ some g →
        g.decode (s.run c) = g.decode c := by
  constructor
  · intro f
    by_cases hflag : f.field = .secondaryHeaderFlag
    · cases f with
      | secondaryHeaderFlag v => exact PrimaryHeaderCall.decode_run_flag_iff h v
      | _ => cases hflag
    · have hspill : f.spill = 0 := by
        cases f with
        | secondaryHeaderFlag v => exact absurd rfl hflag
        | _ => rfl
      constructor
      · intro _
        rw [hspill]
        exact within_zero _
      · intro _ g hg
        exact PrimaryHeaderCall.decode_run hflag hg h
  · intro s g hg
    exact PacketCall.decode_run hg c

/-- A flag of 1 leaves the type alone; a data sense of 200 is ignored. -/
theorem isolated_flag :
    PrimaryHeaderField.type.decode ((PrimaryHeaderCall.secondaryHeaderFlag 1).run
          zeroedPrimaryHeader)
        = PrimaryHeaderField.type.decode zeroedPrimaryHeader
      ∧ PacketField.preprocessorBlockSize.decode ((PacketCall.preprocessorDataSense 200).run
          zeroedPacket)
        = PacketField.preprocessorBlockSize.decode zeroedPacket :=
  ⟨((isolated_iff zeroedPrimaryHeader zeroedPacket).1 (.secondaryHeaderFlag 1)).mpr (by decide)
      .type (by decide),
    (isolated_iff zeroedPrimaryHeader zeroedPacket).2 (.preprocessorDataSense 200)
      .preprocessorBlockSize (by decide)⟩

/-- **A flag that is not 0 or 1 changes other fields.** Setting it to 2 turns the type from 0
to 1. -/
theorem isolated_type :
    PrimaryHeaderField.type.decode zeroedPrimaryHeader = 0
      ∧ PrimaryHeaderField.type.decode ((PrimaryHeaderCall.secondaryHeaderFlag 2).run
          zeroedPrimaryHeader) = 1 := by
  decide

end IQzip
