import Chip8.Proofs.Cells
import Chip8.Proofs.LastOfKind
import Mathlib.Data.List.Induction

/-!
# Memory after writes

Any writes one after the other, some of which may be refused.

* `Write`, `after`         the writes, and memory after some of them;
* `Write.Fits`             the range lies within memory; the others are refused;
* `Write.Covers i w`       the write is let through, and the cell is in its range;
* `LastByte m writes i b`  `b` is the byte of the last write that covers the cell, or stood there before;
* `getElem?_next_of_covers`, `getElem?_next_of_not_covers`   what one write does to a cell;
* `getElem?_after_iff`     the last write that covers a cell says what it holds;
* `next_comm`              writes whose ranges have no address in common commute;
* `last_write_stands`      the main statement.
-/

namespace Chip8.Memory

/-- A write that is asked for. -/
structure Write where
  address : Int
  bytes : List UInt8

namespace Write

/-- The address is in the range that is to be written. -/
def Spans (w : Write) (i : Int) : Prop := w.address ≤ i ∧ i < w.address + w.bytes.length

def Fits (w : Write) : Prop := 0 ≤ w.address ∧ w.address + w.bytes.length ≤ 4096

/-- The write is let through and says what the cell holds. -/
def Covers (i : Nat) (w : Write) : Prop := w.Fits ∧ w.Spans i

/-- The byte for a cell. -/
def byteAt (w : Write) (i : Nat) : Option UInt8 := w.bytes[(i - w.address).toNat]?

/-- The ranges have no address in common. -/
def Apart (w v : Write) : Prop := ∀ i, ¬ (w.Spans i ∧ v.Spans i)

instance (w : Write) : Decidable w.Fits := inferInstanceAs (Decidable (_ ∧ _))

instance (w : Write) (i : Int) : Decidable (w.Spans i) := inferInstanceAs (Decidable (_ ∧ _))

instance (i : Nat) : DecidablePred (Covers i) := fun _ => inferInstanceAs (Decidable (_ ∧ _))

/-- A write that fits starts at a cell. -/
theorem Fits.natCast {w : Write} (h : w.Fits) : (w.address.toNat : Int) = w.address :=
  Int.toNat_of_nonneg h.1

theorem Covers.lt {w : Write} {i : Nat} (h : w.Covers i) : i < 4096 := by
  have := h.1.2
  have := h.2.2
  omega

theorem Covers.exists_byteAt {w : Write} {i : Nat} (h : w.Covers i) : ∃ b, w.byteAt i = some b := by
  have := h.2.1
  have := h.2.2
  exact ⟨_, List.getElem?_eq_getElem (by omega)⟩

end Write

/-- Memory after a write.  One that is refused leaves it as it is. -/
def next (m : Memory) (w : Write) : Memory :=
  match m.write w.address w.bytes with
  | .ok m' => m'
  | .error _ => m

def after (m : Memory) (writes : List Write) : Memory := writes.foldl next m

/-- The byte of the last write that covers the cell, or what stood there before if there is none. -/
def LastByte (m : Memory) (writes : List Write) (i : Nat) (b : UInt8) : Prop :=
  (∃ w, IsLast (Write.Covers i) w writes ∧ w.byteAt i = some b) ∨
    (∀ w ∈ writes, ¬ w.Covers i) ∧ m[i]? = some b

variable {m : Memory} {w v : Write} {i : Nat}

/-! ### One write -/

/-- A write is refused exactly if its range does not lie within memory, whatever memory holds. -/
theorem write_refused_iff (m : Memory) (w : Write) (c : Cause) : m.write w.address w.bytes = .error c ↔
    ¬ w.Fits ∧ c = .outOfBounds w.address w.bytes.length := by
  have hfits : ¬ w.Fits ↔ w.address < 0 ∨ 4096 < w.address + w.bytes.length := by
    rw [Write.Fits]
    omega
  rw [write_eq_error_iff, hfits]

theorem next_of_not_fits (h : ¬ w.Fits) : m.next w = m := by
  rw [next, (write_refused_iff m w _).mpr ⟨h, rfl⟩]

theorem next_of_fits (h : w.Fits) : m.next w = m.store w.address.toNat w.bytes := by
  rw [next]
  cases hw : m.write w.address w.bytes with
  | error c => exact absurd h ((write_refused_iff m w c).mp hw).1
  | ok m' => exact (write_eq_ok hw).2.2

/-- A write that covers a cell puts its byte there. -/
theorem getElem?_next_of_covers (h : w.Covers i) : (m.next w)[i]? = w.byteAt i := by
  obtain ⟨b, hb⟩ := h.exists_byteAt
  have hcell : i = w.address.toNat + (i - w.address).toNat := by
    have := h.1.natCast
    have := h.2.1
    omega
  have hlt : w.address.toNat + (i - w.address).toNat < 4096 := hcell ▸ h.lt
  have hstored := m.getElem?_store_of_inside hb hlt
  rw [← hcell] at hstored
  rw [next_of_fits h.1, hstored, hb]

/-- A write that does not cover a cell leaves it as it is. -/
theorem getElem?_next_of_not_covers (h : ¬ w.Covers i) : (m.next w)[i]? = m[i]? := by
  by_cases hfits : w.Fits
  · have hspan : ¬ w.Spans i := fun hspan => h ⟨hfits, hspan⟩
    have hstart := hfits.natCast
    rw [Write.Spans] at hspan
    rw [next_of_fits hfits, getElem?_store_of_outside m (by omega)]
  · rw [next_of_not_fits hfits]

/-- A write that fits is read back. -/
theorem read_next_of_fits (m : Memory) (h : w.Fits) :
    (m.next w).read w.address w.bytes.length = .ok w.bytes := by
  have hstart := h.natCast
  have hend := h.2
  rw [next_of_fits h]
  exact read_length_eq_ok_iff.mpr ⟨h.1, h.2, m.shows_store (by omega)⟩

/-! ### Writes one after the other -/

theorem after_concat (m : Memory) (writes : List Write) (w : Write) :
    m.after (writes ++ [w]) = (m.after writes).next w := List.foldl_concat ..

theorem after_append_cons_cons (m : Memory) (before : List Write) (w v : Write) (later : List Write) :
    m.after (before ++ w :: v :: later) = (((m.after before).next w).next v).after later :=
  List.foldl_append ..

/-- The last write that covers a cell says what it holds. -/
theorem getElem?_after_iff (m : Memory) (writes : List Write) (i : Nat) (b : UInt8) :
    (m.after writes)[i]? = some b ↔ LastByte m writes i b := by
  induction writes using List.reverseRecOn with
  | nil =>
    refine ⟨fun h => .inr ⟨List.forall_mem_nil _, h⟩, ?_⟩
    rintro (⟨w, hw, -⟩ | ⟨-, h⟩)
    · exact absurd hw IsLast.of_nil
    · exact h
  | append_singleton writes w ih =>
    rw [after_concat, LastByte]
    by_cases hw : w.Covers i
    · -- it is the last one, whatever came before
      have hsome : ¬ ∀ v ∈ writes ++ [w], ¬ v.Covers i := fun h => h w (by simp) hw
      simp only [IsLast.concat_iff hw, exists_eq_left, hsome, false_and, or_false]
      rw [getElem?_next_of_covers hw]
    · have hnone : (∀ v ∈ writes ++ [w], ¬ v.Covers i) ↔ ∀ v ∈ writes, ¬ v.Covers i := by
        rw [List.forall_mem_append, List.forall_mem_singleton]
        exact and_iff_left hw
      simp only [IsLast.concat_iff_of_not hw, hnone]
      rw [getElem?_next_of_not_covers hw]
      exact ih

/-- Writes whose ranges have no address in common may change places. -/
theorem next_comm (m : Memory) (h : w.Apart v) : (m.next w).next v = (m.next v).next w := by
  refine Vector.ext fun i hi => Option.some.inj ?_
  rw [← Vector.getElem?_eq_getElem hi, ← Vector.getElem?_eq_getElem hi]
  by_cases hw : w.Covers i
  · have hv : ¬ v.Covers i := fun hv => h i ⟨hw.2, hv.2⟩
    rw [getElem?_next_of_not_covers hv, getElem?_next_of_covers hw, getElem?_next_of_covers hw]
  · rw [getElem?_next_of_not_covers (w := w) hw]
    by_cases hv : v.Covers i
    · rw [getElem?_next_of_covers hv, getElem?_next_of_covers hv]
    · rw [getElem?_next_of_not_covers hv, getElem?_next_of_not_covers hv,
        getElem?_next_of_not_covers hw]

/-- **The last write stands.**  After any writes, at any addresses and of any lengths, a cell holds the byte of
the last one that covers it and was let through, and is read as this byte. -/
theorem last_write_stands (m : Memory) (writes : List Write) :
    let t := m.after writes
    (∀ w : Write, (∀ c, t.write w.address w.bytes = .error c ↔
        (w.address < 0 ∨ 4096 < w.address + w.bytes.length) ∧ c = .outOfBounds w.address w.bytes.length) ∧
      ((∃ c, t.write w.address w.bytes = .error c) → m.after (writes ++ [w]) = t) ∧
      ∀ t', t.write w.address w.bytes = .ok t' → m.after (writes ++ [w]) = t' ∧
        t'.read w.address w.bytes.length = .ok w.bytes) ∧
    (∀ i b, t[i]? = some b ↔ LastByte m writes i b) ∧
    (∀ a n, checkRange a n = .ok () → 0 ≤ n → ∃ bytes, t.read a n = .ok bytes ∧
      (bytes.length : Int) = n ∧ ∀ (k : Nat) (b : UInt8), (k : Int) < n →
        (bytes[k]? = some b ↔ LastByte m writes (a.toNat + k) b)) ∧
    -- two writes in a row that have no address in common can change places
    ∀ w v later, w.Apart v →
      m.after (writes ++ w :: v :: later) = m.after (writes ++ v :: w :: later) ∧
      ∀ c, ((t.next w).write v.address v.bytes = .error c ↔ t.write v.address v.bytes = .error c) ∧
        ((t.next v).write w.address w.bytes = .error c ↔ t.write w.address w.bytes = .error c) := by
  intro t
  refine ⟨fun w => ⟨fun c => write_eq_error_iff, ?_, ?_⟩, getElem?_after_iff m writes, ?_, ?_⟩
  · rintro ⟨c, hc⟩
    rw [after_concat]
    exact next_of_not_fits ((write_refused_iff t w c).mp hc).1
  · intro t' ht'
    have hnext : t.next w = t' := by rw [next, ht']
    obtain ⟨h0, h1, -⟩ := write_eq_ok ht'
    rw [after_concat]
    exact ⟨hnext, hnext ▸ read_next_of_fits t ⟨h0, h1⟩⟩
  · intro a n hcheck hn
    obtain ⟨bytes, hread, hlength, hcells⟩ := read_of_accepted t hcheck hn
    refine ⟨bytes, hread, hlength, fun k b hk => ?_⟩
    rw [hcells k hk]
    exact getElem?_after_iff m writes _ b
  · intro w v later hapart
    refine ⟨?_, fun c => ⟨?_, ?_⟩⟩
    · rw [after_append_cons_cons, after_append_cons_cons, next_comm _ hapart]
    · rw [write_refused_iff, write_refused_iff]
    · rw [write_refused_iff, write_refused_iff]

/-- The second write does not fit, and the third one lies within the first: the cell that both cover holds
its byte.  The first two may change places. -/
theorem last_write_stands_nested :
    let w : Write := ⟨0x300, [1, 2, 3]⟩
    let v : Write := ⟨0xFFF, [4, 5]⟩
    let u : Write := ⟨0x301, [6]⟩
    checkRange 0x300 3 = .ok () ∧ (∃ bytes, (fresh.after [w, v, u]).read 0x300 3 = .ok bytes ∧
      bytes.length = 3 ∧ bytes[0]? = some 1 ∧ bytes[1]? = some 6 ∧ bytes[2]? = some 3) ∧
    (∃ c, (fresh.after [w]).write v.address v.bytes = .error c) ∧ fresh.after [w, v] = fresh.after [w] ∧
    w.Apart v ∧ fresh.after [w, v, u] = fresh.after [v, w, u] := by
  intro w v u
  have hcheck : checkRange 0x300 3 = .ok () := checkRange_eq_ok_iff.mpr (by decide)
  obtain ⟨-, -, hread, -⟩ := last_write_stands fresh [w, v, u]
  obtain ⟨bytes, hbytes, hlength, hcells⟩ := hread 0x300 3 hcheck (by decide)
  have hfirst (i : Nat) (b : UInt8) (hi : w.Covers i) (hrest : ∀ x ∈ [v, u], ¬ x.Covers i)
      (hb : w.byteAt i = some b) : LastByte fresh [w, v, u] i b :=
    .inl ⟨w, ⟨[], [v, u], rfl, hi, hrest⟩, hb⟩
  have hlast : LastByte fresh [w, v, u] 0x301 6 :=
    .inl ⟨u, ⟨[w, v], [], rfl, by decide, List.forall_mem_nil _⟩, rfl⟩
  obtain ⟨hone, -, -, -⟩ := last_write_stands fresh [w]
  obtain ⟨hrefused, hnothing, -⟩ := hone v
  have hv : ∃ c, (fresh.after [w]).write v.address v.bytes = .error c :=
    ⟨_, (hrefused _).mpr ⟨by decide, rfl⟩⟩
  have hapart : w.Apart v := by
    rintro i ⟨⟨-, hend⟩, hstart, -⟩
    have hend : i < 0x300 + 3 := hend
    have hstart : 0xFFF ≤ i := hstart
    omega
  obtain ⟨-, -, -, hempty⟩ := last_write_stands fresh []
  refine ⟨hcheck, ⟨bytes, hbytes, Int.ofNat_inj.mp hlength, ?_, ?_, ?_⟩, hv, hnothing hv, hapart,
    (hempty w v [u] hapart).1⟩
  · exact (hcells 0 1 (by decide)).mpr (hfirst _ 1 (by decide) (by decide) rfl)
  · exact (hcells 1 6 (by decide)).mpr hlast
  · exact (hcells 2 3 (by decide)).mpr (hfirst _ 3 (by decide) (by decide) rfl)

end Chip8.Memory
