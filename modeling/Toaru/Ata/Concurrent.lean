import Toaru.Ata.Dma

/-!
# Two writers on one disk

`write_ata` takes `ata_lock` once per sector operation, not once per call: a partial
sector is read into `tmp` under the lock, patched without it, and handed to
`ata_device_write_sector_retry`, which writes the sector and reads it back under the lock,
and writes it again while the read-back differs. Two concurrent calls therefore interleave
at the grain of one sector operation. Each call is a process over its list of sector calls
(`Writer`, `Writer.step`); an interleaving is a schedule of the two processes' steps
(`interleave`).

* Calls that share no sector serialize: whatever the schedule, once both have returned
  the disk is the result of the two writes one after the other
  (`interleave_serializes`). For `write_ata` itself the sectors are the ones its
  `WRITE PIO` commands designate, `lba mod 2^24`; on a disk of at most `2^24` sectors they
  are the sectors of the requests, and requests on disjoint sectors serialize
  (`write_ata_concurrent_serialize`).
  The proof is an invariant (`Inv`) kept by every step (`Inv.step_left`, `Inv.step_right`):
  each writer sees, on its own sectors, exactly what its calls so far have written.
* Calls whose byte ranges are disjoint but share a partial sector can lose an update: one
  schedule leaves the first writer's bytes overwritten by the second writer's stale copy
  of the sector (`write_ata_lost_update`).
-/

set_option autoImplicit false

namespace Toaru
namespace Ata

/-! ## 1. Sectors and frames -/

/-- The sectors a list of calls touches. -/
def Touches (ops : List Xfer) (k : Nat) : Prop := k ∈ ops.map Xfer.lba

/-- Two disks agree on every byte of the sectors in `P`. -/
def AgreeOn (S : Nat) (P : Nat → Prop) (d d' : Mem) : Prop := ∀ a, P (a / S) → d a = d' a

theorem AgreeOn.trans {S : Nat} {P : Nat → Prop} {d d' d'' : Mem} (h : AgreeOn S P d d')
    (h' : AgreeOn S P d' d'') : AgreeOn S P d d'' := fun a ha => (h a ha).trans (h' a ha)

theorem sector_eq_of_mem {S lba a : Nat} (h₁ : lba * S ≤ a) (h₂ : a < lba * S + S) :
    a / S = lba :=
  Nat.div_eq_of_lt_le h₁ (by rw [Nat.succ_mul]; exact h₂)

/-- Disks that agree on a sector agree on each of its bytes. -/
theorem AgreeOn.sector {S : Nat} {P : Nat → Prop} {d d' : Mem} {lba : Nat} (h : AgreeOn S P d d')
    (hP : P lba) : ∀ i < S, d (lba * S + i) = d' (lba * S + i) := fun i hi =>
  h _ (by rwa [sector_eq_of_mem (Nat.le_add_right _ _) (Nat.add_lt_add_left hi _)])

/-- A sector write changes only its own sector. -/
theorem memcpy_sector_of_ne {S lba a : Nat} {d data : Mem} (h : a / S ≠ lba) :
    memcpy d (lba * S) data 0 S a = d a :=
  memcpy_of_not_mem fun h' => h (sector_eq_of_mem h'.1 h'.2)

theorem memcpy_sector_of_eq {S lba a : Nat} {d data : Mem} (hS : 0 < S) (h : a / S = lba) :
    memcpy d (lba * S) data 0 S a = data (a - lba * S) := by
  have := Nat.div_add_mod a S
  have := Nat.mod_lt a hS
  rw [memcpy_of_mem (by rw [← h, Nat.mul_comm]; omega) (by rw [← h, Nat.mul_comm]; omega), Nat.zero_add]

namespace Xfer

/-- The sector image a call writes, computed from the disk as it reads it: the sector
patched with the caller's bytes for a partial call, the caller's bytes for a whole one. -/
def image (S : Nat) (buffer disk : Mem) : Xfer → Mem
  | part lba secOff bufOff len => memcpy (sectorView S disk lba) secOff buffer bufOff len
  | whole _ bufOff => fun i => buffer (bufOff + i)

theorem write_eq_image (S : Nat) (buffer disk : Mem) (op : Xfer) :
    op.write S buffer disk = memcpy disk (op.lba * S) (op.image S buffer disk) 0 S := by
  cases op with
  | part => rfl
  | whole lba bufOff =>
    funext a
    simp only [write, image, memcpy, lba_whole, Nat.zero_add]

/-- The image reads the disk only in the call's sector. -/
theorem image_congr {S : Nat} {buffer disk disk' : Mem} (op : Xfer)
    (h : ∀ i < S, disk (op.lba * S + i) = disk' (op.lba * S + i)) :
    ∀ i < S, op.image S buffer disk i = op.image S buffer disk' i := by
  intro i hi
  cases op with
  | part lba secOff bufOff len =>
    simp only [image, memcpy, sectorView]
    split_ifs
    · rfl
    · exact h i hi
  | whole => rfl

theorem write_frame {S a : Nat} {buffer disk : Mem} {op : Xfer} (h : a / S ≠ op.lba) :
    op.write S buffer disk a = disk a := by
  rw [write_eq_image]; exact memcpy_sector_of_ne h

/-- A call keeps two disks that agree on a set of sectors containing its own in agreement. -/
theorem write_agree {S : Nat} (hS : 0 < S) {P : Nat → Prop} {buffer d d' : Mem} {op : Xfer}
    (hP : P op.lba) (h : AgreeOn S P d d') :
    AgreeOn S P (op.write S buffer d) (op.write S buffer d') := by
  intro a ha
  by_cases hl : a / S = op.lba
  · have hin := h.sector hP
    have := Nat.div_add_mod a S
    have := Nat.mod_lt a hS
    rw [write_eq_image, write_eq_image, memcpy_sector_of_eq hS hl, memcpy_sector_of_eq hS hl,
      image_congr op hin _ (by rw [← hl, Nat.mul_comm]; omega)]
  · rw [write_frame hl, write_frame hl]; exact h a ha

end Xfer

theorem writeAll_append (S : Nat) (buffer d : Mem) (ops ops' : List Xfer) :
    writeAll S buffer d (ops ++ ops') = writeAll S buffer (writeAll S buffer d ops) ops' :=
  List.foldl_append _ _ _ _

/-- The calls of a write change only the sectors they touch. -/
theorem writeAll_frame {S a : Nat} {buffer : Mem} :
    ∀ {ops : List Xfer} {d : Mem}, ¬ Touches ops (a / S) → writeAll S buffer d ops a = d a
  | [], _, _ => rfl
  | op :: ops, d, h => by
    simp only [Touches, List.map_cons, List.mem_cons, not_or] at h
    rw [writeAll_cons, writeAll_frame h.2, Xfer.write_frame h.1]

theorem writeAll_agree {S : Nat} (hS : 0 < S) {P : Nat → Prop} {buffer : Mem} :
    ∀ {ops : List Xfer} {d d' : Mem}, (∀ op ∈ ops, P op.lba) → AgreeOn S P d d' →
      AgreeOn S P (writeAll S buffer d ops) (writeAll S buffer d' ops)
  | [], _, _, _, h => h
  | op :: ops, _, _, hP, h => by
    rw [writeAll_cons, writeAll_cons]
    exact writeAll_agree hS (fun o ho => hP o (List.mem_cons_of_mem _ ho))
      (Xfer.write_agree hS (hP op (List.mem_cons_self _ _)) h)

/-! ## 2. One writer -/

/-- Where a writer stands in its head call: about to start it, about to write the sector
image `data`, or having written `data` and about to read it back. -/
inductive Pc
  | next
  | write (data : Mem)
  | verify (data : Mem)

/-- One `write_ata` call in progress: its buffer, the sector calls it has still to make, as
the drive executes them (each `lba` is the sector its commands designate), and where it
stands in the head one. -/
structure Writer where
  buffer : Mem
  ops : List Xfer
  pc : Pc

/-- One atomic step of a writer on the disk: `ata_device_read_sector` of a partial sector
and the patch of `tmp` (for a whole sector, only the choice of the bytes to write), one
`ata_device_write_sector`, or the read-back of `ata_device_write_sector_retry` and its
comparison. A writer with no call left has returned and stays put. -/
def Writer.step (S : Nat) (disk : Mem) (w : Writer) : Mem × Writer :=
  match w.ops, w.pc with
  | [], _ => (disk, w)
  | op :: _, .next => (disk, { w with pc := .write (op.image S w.buffer disk) })
  | op :: _, .write data => (memcpy disk (op.lba * S) data 0 S, { w with pc := .verify data })
  | op :: rest, .verify data =>
    if ∀ i < S, sectorView S disk op.lba i = data i then (disk, { w with ops := rest, pc := .next })
    else (disk, { w with pc := .write data })

/-- A writer that started with the calls `all` on disk `d0` is consistent with disk `d`:
it has made the calls `done`, and on its sectors `d` holds what they wrote, plus the head
call's image once that is written; an image it holds is the head call's image over what
the calls so far wrote. -/
inductive Writer.Good (S : Nat) (all : List Xfer) (d0 : Mem) : Writer → Mem → Prop
  | next {buffer : Mem} {done rest : List Xfer} {d : Mem} :
      all = done ++ rest → AgreeOn S (Touches all) d (writeAll S buffer d0 done) →
      Good S all d0 ⟨buffer, rest, .next⟩ d
  | write {buffer data : Mem} {done rest : List Xfer} {op : Xfer} {d : Mem} :
      all = done ++ op :: rest → AgreeOn S (Touches all) d (writeAll S buffer d0 done) →
      (∀ i < S, data i = op.image S buffer (writeAll S buffer d0 done) i) →
      Good S all d0 ⟨buffer, op :: rest, .write data⟩ d
  | verify {buffer data : Mem} {done rest : List Xfer} {op : Xfer} {d : Mem} :
      all = done ++ op :: rest →
      AgreeOn S (Touches all) d (op.write S buffer (writeAll S buffer d0 done)) →
      (∀ i < S, data i = op.image S buffer (writeAll S buffer d0 done) i) →
      Good S all d0 ⟨buffer, op :: rest, .verify data⟩ d

section Good

variable {S : Nat} {all : List Xfer} {d0 : Mem}

theorem touches_of_eq {done rest : List Xfer} {op : Xfer} (h : all = done ++ op :: rest) :
    Touches all op.lba := by
  rw [h]; exact List.mem_map_of_mem _ (List.mem_append_right _ (List.mem_cons_self _ _))

/-- Consistency reads the disk only on the writer's sectors. -/
theorem Writer.Good.congr {w : Writer} {d d' : Mem} (h : w.Good S all d0 d)
    (hd : AgreeOn S (Touches all) d' d) : w.Good S all d0 d' := by
  cases h with
  | next he ha => exact .next he (hd.trans ha)
  | write he ha hi => exact .write he (hd.trans ha) hi
  | verify he ha hi => exact .verify he (hd.trans ha) hi

/-- **Step lemma.** A step keeps the writer consistent, and changes the disk only on the
writer's own sectors. -/
theorem Writer.Good.step (hS : 0 < S) {w : Writer} {d : Mem} (h : w.Good S all d0 d) :
    (w.step S d).2.Good S all d0 (w.step S d).1 ∧
      ∀ a, ¬ Touches all (a / S) → (w.step S d).1 a = d a := by
  cases h with
  | @next buffer done rest d he ha =>
    cases rest with
    | nil => exact ⟨.next he ha, fun _ _ => rfl⟩
    | cons op rest =>
      exact ⟨.write he ha (fun i hi => Xfer.image_congr op (ha.sector (touches_of_eq he)) i hi),
        fun _ _ => rfl⟩
  | @write buffer data done rest op d he ha hi =>
    have hop := touches_of_eq he
    have hstep : Writer.step S d ⟨buffer, op :: rest, .write data⟩ =
        (memcpy d (op.lba * S) data 0 S, ⟨buffer, op :: rest, .verify data⟩) := rfl
    rw [hstep]
    refine ⟨.verify he (fun a hat => ?_) hi, fun a hn => memcpy_sector_of_ne fun hl => hn (hl ▸ hop)⟩
    dsimp only
    by_cases hl : a / S = op.lba
    · have := Nat.div_add_mod a S
      have := Nat.mod_lt a hS
      rw [Xfer.write_eq_image, memcpy_sector_of_eq hS hl, memcpy_sector_of_eq hS hl,
        hi _ (by rw [← hl, Nat.mul_comm]; omega)]
    · rw [memcpy_sector_of_ne hl, Xfer.write_frame hl]
      exact ha a hat
  | @verify buffer data done rest op d he ha hi =>
    have hop := touches_of_eq he
    have hc : ∀ i < S, sectorView S d op.lba i = data i := fun i hi' => by
      rw [sectorView, ha.sector hop i hi', Xfer.write_eq_image,
        memcpy_of_mem (Nat.le_add_right _ _) (Nat.add_lt_add_left hi' _), Nat.zero_add,
        Nat.add_sub_cancel_left, hi i hi']
    have hstep : Writer.step S d ⟨buffer, op :: rest, .verify data⟩ = (d, ⟨buffer, rest, .next⟩) := by
      simp only [Writer.step, if_pos hc]
    rw [hstep]
    refine ⟨@Writer.Good.next S all d0 buffer (done ++ [op]) rest d
      (by rw [he, List.append_assoc]; rfl) ?_, fun _ _ => rfl⟩
    rwa [writeAll_append, writeAll_cons, writeAll_nil]

/-- A writer that has no call left has made them all. -/
theorem Writer.Good.finished {w : Writer} {d : Mem} (h : w.Good S all d0 d) (hw : w.ops = []) :
    AgreeOn S (Touches all) d (writeAll S w.buffer d0 all) := by
  cases h with
  | next he ha =>
    dsimp only at hw ⊢
    rw [hw, List.append_nil] at he
    subst he
    exact ha
  | write => cases hw
  | verify => cases hw

theorem Writer.Good.start (buffer : Mem) :
    Writer.Good S all d0 ⟨buffer, all, .next⟩ d0 :=
  .next (List.nil_append all).symm fun _ _ => rfl

end Good

theorem Writer.step_buffer (S : Nat) (d : Mem) (w : Writer) : (w.step S d).2.buffer = w.buffer := by
  rcases w with ⟨buffer, _ | ⟨op, rest⟩, _ | data | data⟩ <;> try rfl
  simp only [Writer.step]
  split_ifs <;> rfl

/-! ## 3. Two writers -/

/-- The run of a schedule: `true` steps the first writer, `false` the second. -/
def interleave (S : Nat) : List Bool → Mem → Writer → Writer → Mem × Writer × Writer
  | [], d, a, b => (d, a, b)
  | true :: sched, d, a, b => interleave S sched (a.step S d).1 (a.step S d).2 b
  | false :: sched, d, a, b => interleave S sched (b.step S d).1 a (b.step S d).2

/-- Both writers are consistent with the disk, keep their buffers, and off their sectors
the disk is the initial one. -/
structure Inv (S : Nat) (allA allB : List Xfer) (bufA bufB d0 d : Mem) (a b : Writer) :
    Prop where
  left : a.Good S allA d0 d
  right : b.Good S allB d0 d
  bufferLeft : a.buffer = bufA
  bufferRight : b.buffer = bufB
  frame : ∀ x, ¬ Touches allA (x / S) → ¬ Touches allB (x / S) → d x = d0 x

section Two

variable {S : Nat} {allA allB : List Xfer} {bufA bufB d0 : Mem}

theorem Inv.step_left (hS : 0 < S) (hdisj : ∀ k, Touches allA k → ¬ Touches allB k)
    {d : Mem} {a b : Writer} (h : Inv S allA allB bufA bufB d0 d a b) :
    Inv S allA allB bufA bufB d0 (a.step S d).1 (a.step S d).2 b := by
  obtain ⟨hg, hfr⟩ := h.left.step hS
  exact ⟨hg, h.right.congr fun x hx => hfr x fun hA => hdisj _ hA hx,
    (Writer.step_buffer S d a).trans h.bufferLeft, h.bufferRight,
    fun x hA hB => (hfr x hA).trans (h.frame x hA hB)⟩

theorem Inv.step_right (hS : 0 < S) (hdisj : ∀ k, Touches allA k → ¬ Touches allB k)
    {d : Mem} {a b : Writer} (h : Inv S allA allB bufA bufB d0 d a b) :
    Inv S allA allB bufA bufB d0 (b.step S d).1 a (b.step S d).2 := by
  obtain ⟨hg, hfr⟩ := h.right.step hS
  exact ⟨h.left.congr fun x hx => hfr x (hdisj _ hx), hg, h.bufferLeft,
    (Writer.step_buffer S d b).trans h.bufferRight,
    fun x hA hB => (hfr x hB).trans (h.frame x hA hB)⟩

/-- **Run lemma.** Every schedule keeps the invariant. -/
theorem Inv.interleave (hS : 0 < S) (hdisj : ∀ k, Touches allA k → ¬ Touches allB k) :
    ∀ (sched : List Bool) {d : Mem} {a b : Writer}, Inv S allA allB bufA bufB d0 d a b →
      let r := Ata.interleave S sched d a b
      Inv S allA allB bufA bufB d0 r.1 r.2.1 r.2.2
  | [], _, _, _, h => h
  | true :: sched, _, _, _, h => Inv.interleave hS hdisj sched (h.step_left hS hdisj)
  | false :: sched, _, _, _, h => Inv.interleave hS hdisj sched (h.step_right hS hdisj)

/-- **Writers on disjoint sectors serialize.** Whatever the schedule, once both writers have
returned the disk is the result of the first write followed by the second. -/
theorem interleave_serializes (hS : 0 < S) (hdisj : ∀ k, Touches allA k → ¬ Touches allB k)
    (sched : List Bool)
    (hA : (interleave S sched d0 ⟨bufA, allA, .next⟩ ⟨bufB, allB, .next⟩).2.1.ops = [])
    (hB : (interleave S sched d0 ⟨bufA, allA, .next⟩ ⟨bufB, allB, .next⟩).2.2.ops = []) :
    (interleave S sched d0 ⟨bufA, allA, .next⟩ ⟨bufB, allB, .next⟩).1 =
      writeAll S bufB (writeAll S bufA d0 allA) allB := by
  have h := Inv.interleave hS hdisj sched
    (⟨Writer.Good.start bufA, Writer.Good.start bufB, rfl, rfl, fun _ _ _ => rfl⟩ :
      Inv S allA allB bufA bufB d0 d0 ⟨bufA, allA, .next⟩ ⟨bufB, allB, .next⟩)
  have fA := h.left.finished hA
  have fB := h.right.finished hB
  rw [h.bufferLeft] at fA
  rw [h.bufferRight] at fB
  funext x
  by_cases hxA : Touches allA (x / S)
  · rw [fA x hxA, writeAll_frame (hdisj _ hxA)]
  by_cases hxB : Touches allB (x / S)
  · rw [fB x hxB]
    exact writeAll_agree hS (fun op hop => List.mem_map_of_mem _ hop)
      (fun y hy => (writeAll_frame fun hyA => hdisj _ hyA hy).symm) x hxB
  · rw [h.frame x hxA hxB, writeAll_frame hxB, writeAll_frame hxA]

end Two

/-! ## 4. Two `write_ata` calls -/

/-- **Two `write_ata` calls on disjoint sectors serialize.** On a disk of at most `2^24`
sectors, for safe requests whose sector ranges do not meet, every interleaving of the two
calls' sector operations, as the drive executes them, in which both return leaves the
disk as the two writes one after the other: each range holds its caller's bytes, and
every other byte is unchanged. -/
theorem write_ata_concurrent_serialize (dev : AtaDevice)
    (hcap : ataMaxOffset dev ≤ 2 ^ 24 * ataSectorSize) {oA nA oB nB : Nat}
    (hA : SafeRequest ataSectorSize (ataMaxOffset dev) oA nA)
    (hB : SafeRequest ataSectorSize (ataMaxOffset dev) oB nB)
    (hnA : nA < 2 ^ 32) (hnB : nB < 2 ^ 32)
    (hsep : (oA + nA - 1) / ataSectorSize < oB / ataSectorSize ∨
      (oB + nB - 1) / ataSectorSize < oA / ataSectorSize)
    (bufA bufB disk : Mem) :
    ∃ opsA opsB, Returns (blockAdapter ataSectorSize (ataMaxOffset dev) oA nA) (opsA, nA) ∧
      Returns (blockAdapter ataSectorSize (ataMaxOffset dev) oB nB) (opsB, nB) ∧
      ∀ sched : List Bool,
        let r := interleave ataSectorSize sched disk ⟨bufA, opsA.map (Xfer.designate 24), .next⟩
          ⟨bufB, opsB.map (Xfer.designate 24), .next⟩
        r.2.1.ops = [] → r.2.2.ops = [] →
        ∀ x, r.1 x = if oB ≤ x ∧ x < oB + nB then bufB (x - oB)
          else if oA ≤ x ∧ x < oA + nA then bufA (x - oA) else disk x := by
  have hS : 0 < ataSectorSize := by decide
  obtain ⟨opsA, rA, pA⟩ := blockAdapter_planSpec hS (ataMaxOffset_lt dev) hnA (.inl hA)
  obtain ⟨opsB, rB, pB⟩ := blockAdapter_planSpec hS (ataMaxOffset_lt dev) hnB (.inl hB)
  rw [hA.transferCount_eq] at rA pA
  rw [hB.transferCount_eq] at rB pB
  have hdisj : ∀ k, Touches opsA k → ¬ Touches opsB k := fun k hkA hkB => by
    have := (pA.mem_lba k).mp hkA
    have := (pB.mem_lba k).mp hkB
    omega
  refine ⟨opsA, opsB, rA, rB, fun sched => ?_⟩
  rw [pA.map_designate hS fun _ => hA.within.trans hcap, pB.map_designate hS fun _ => hB.within.trans hcap]
  intro _ hdA hdB x
  rw [interleave_serializes hS hdisj sched hdA hdB, pB.writeAll_eq, pA.writeAll_eq]

theorem write_ata_concurrent_serialize_hda :
    ataMaxOffset hda ≤ 2 ^ 24 * ataSectorSize ∧
      SafeRequest ataSectorSize (ataMaxOffset hda) 512 512 ∧
      SafeRequest ataSectorSize (ataMaxOffset hda) 2048 1000 ∧ 512 < 2 ^ 32 ∧ 1000 < 2 ^ 32 ∧
      ((512 + 512 - 1) / ataSectorSize < 2048 / ataSectorSize ∨
        (2048 + 1000 - 1) / ataSectorSize < 512 / ataSectorSize) ∧
      ∃ opsA opsB, Returns (blockAdapter ataSectorSize (ataMaxOffset hda) 512 512) (opsA, 512) ∧
        Returns (blockAdapter ataSectorSize (ataMaxOffset hda) 2048 1000) (opsB, 1000) ∧
        ∀ sched : List Bool,
          let r := interleave ataSectorSize sched (fun _ => 0)
            ⟨fun _ => 0xAA, opsA.map (Xfer.designate 24), .next⟩
            ⟨fun _ => 0xBB, opsB.map (Xfer.designate 24), .next⟩
          r.2.1.ops = [] → r.2.2.ops = [] →
          ∀ x, r.1 x = if 2048 ≤ x ∧ x < 2048 + 1000 then 0xBB
            else if 512 ≤ x ∧ x < 512 + 512 then 0xAA else 0 :=
  have hA : SafeRequest ataSectorSize (ataMaxOffset hda) 512 512 := ⟨by decide, by decide, by decide⟩
  have hB : SafeRequest ataSectorSize (ataMaxOffset hda) 2048 1000 := ⟨by decide, by decide, by decide⟩
  ⟨by decide, hA, hB, by decide, by decide, by decide,
    write_ata_concurrent_serialize hda (by decide) hA hB (by decide) (by decide) (by decide) _ _ _⟩

set_option maxRecDepth 4096 in
/-- **Disjoint bytes in one sector can be lost.** `write_ata` of bytes 612–1023 and of
bytes 512–611 of `/dev/hda`, the two ends of sector 1. If the second call reads the sector
before the first writes it back, its own write-back restores the old bytes 612–1023: both
calls return, and byte 700 holds its old value 0, where the two writes one after the other
leave the first caller's `0xAA`. -/
theorem write_ata_lost_update :
    Returns (blockAdapter ataSectorSize (ataMaxOffset hda) 612 412) ([.part 1 100 0 412], 412) ∧
      Returns (blockAdapter ataSectorSize (ataMaxOffset hda) 512 100) ([.part 1 0 0 100], 100) ∧
      (interleave ataSectorSize [true, false, true, true, false, false] (fun _ => 0)
        ⟨fun _ => 0xAA, [.part 1 100 0 412], .next⟩ ⟨fun _ => 0xBB, [.part 1 0 0 100], .next⟩).2.1.ops = [] ∧
      (interleave ataSectorSize [true, false, true, true, false, false] (fun _ => 0)
        ⟨fun _ => 0xAA, [.part 1 100 0 412], .next⟩ ⟨fun _ => 0xBB, [.part 1 0 0 100], .next⟩).2.2.ops = [] ∧
      (interleave ataSectorSize [true, false, true, true, false, false] (fun _ => 0)
        ⟨fun _ => 0xAA, [.part 1 100 0 412], .next⟩ ⟨fun _ => 0xBB, [.part 1 0 0 100], .next⟩).1 700 = 0 ∧
      writeAll ataSectorSize (fun _ => 0xBB)
        (writeAll ataSectorSize (fun _ => 0xAA) (fun _ => 0) [.part 1 100 0 412]) [.part 1 0 0 100] 700 = 0xAA :=
  ⟨⟨2, by decide⟩, ⟨2, by decide⟩, by decide, by decide, by decide, by decide⟩

end Ata
end Toaru
