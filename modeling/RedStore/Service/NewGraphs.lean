/-
The graphs that are made for documents that come without one.

The URI of a new graph shows the number that its identifier is made of, up to the last 32 bits,
so that the graphs that are tried one after the other are different ones.
-/
import RedStore.Service.GraphNames
import RedStore.Service.Uploads
import RedStore.Uri.Recompose
import Mathlib.Data.List.Nodup

namespace RedStore.Service
open CLib RedHttp

variable {T R σ : Type} {w : World T R σ}

/-- The URI of a new graph, by the URL of the request and the number of its identifier. -/
def newGraphUri (url : CString) (n : ℕ) : CString :=
  CString.ofBytes (Rfc3986.resolve url.bytes (CString.lit "/data/" ++ genidText n).bytes)

lemma newGraphUri_bytes (url : CString) (n : ℕ) : (newGraphUri url n).bytes = Rfc3986.front
    { Rfc3986.parse url.bytes with path := (CString.lit "/data/" ++ genidText n).bytes } := by
  have hplain : ∀ c ∈ bytesOf "data/" ++ (genidText n).bytes,
      c ≠ ch '?' ∧ c ≠ ch '#' ∧ c ≠ ch '.' := by
    have hdata : ∀ c ∈ bytesOf "data/" ++ ch '-' :: idChars,
        c ≠ ch '?' ∧ c ≠ ch '#' ∧ c ≠ ch '.' := forall_mem_of_all (by decide)
    rintro c hc
    refine hdata c ?_
    rcases List.mem_append.mp hc with hc | hc
    · exact List.mem_append_left _ hc
    · rw [bytes_genidText] at hc
      exact List.mem_append_right _ (mem_genidLoop hc)
  rw [newGraphUri, CString.bytes_ofBytes_of_not_mem (resolve_nul_free _ _)]
  exact Rfc3986.resolve_of_plain_path url.bytes (s := bytesOf "data/" ++ (genidText n).bytes)
    (fun rest h => absurd (List.cons.inj h).1 (by decide)) (fun h => (hplain _ h).1 rfl)
    (fun h => (hplain _ h).2.1 rfl) fun h => (hplain _ h).2.2 rfl

lemma newGraphUri_strlen (url : CString) (n : ℕ) : (newGraphUri url n).strlen ≠ 0 := by
  rw [CString.strlen, newGraphUri_bytes, Rfc3986.front, List.length_append]
  exact Nat.ne_of_gt (Nat.lt_of_lt_of_le (Nat.succ_pos _) (Nat.le_add_left _ _))

/-- The URI of a new graph shows the last 32 bits of its number. -/
lemma newGraphUri_injective {url : CString} {n m : ℕ} (h : newGraphUri url n = newGraphUri url m) :
    n % 2 ^ 32 = m % 2 ^ 32 := by
  have hbytes := congrArg CString.bytes h
  rw [newGraphUri_bytes, newGraphUri_bytes] at hbytes
  have hid : bytesOf "/data/" ++ (genidText n).bytes = bytesOf "/data/" ++ (genidText m).bytes :=
    List.append_cancel_left hbytes
  exact genidText_injective (CString.ext (List.append_cancel_left hid))

/-- The number behind that of an identifier. -/
def nextId (w : World T R σ) (n : ℕ) : ℕ :=
  if (n + 1) % longRange = 0 then w.random % longRange else (n + 1) % longRange

/-- Ten numbers one behind the other differ in their last 32 bits, also if they begin anew on the
way. -/
lemma nextId_ne (hrandom : w.random < intRange) {i : ℕ} (hpos : 0 < i) (hi : i < 10) (n : ℕ) :
    (nextId w)^[i] n % 2 ^ 32 ≠ n % 2 ^ 32 := by
  have hwrap : ∀ i ≤ 10, ((nextId w)^[i] n % longRange = (n + i) % longRange) ∨
      ∃ s < i, (n + s + 1) % longRange = 0 ∧ (nextId w)^[i] n + s + 1 = w.random + i := by
    intro i
    induction i with
    | zero => exact fun _ => Or.inl rfl
    | succ i ih =>
      intro hi
      rw [Function.iterate_succ_apply', nextId]
      rcases ih (by omega) with h | ⟨s, hs, hzero, h⟩
      · split
        · refine Or.inr ⟨i, by omega, ?_, ?_⟩
          · simp only [longRange] at *
            omega
          · simp only [longRange, intRange] at *
            omega
        · left
          simp only [longRange] at *
          omega
      · refine Or.inr ⟨s, by omega, hzero, ?_⟩
        split
        · simp only [longRange, intRange] at *
          omega
        · simp only [longRange, intRange] at *
          omega
  simp only [longRange, intRange] at *
  rcases hwrap i (by omega) with h | ⟨s, hs, hzero, h⟩
  · omega
  · omega

/-- The graphs that are tried are ten different ones. -/
lemma nodup_tried (hrandom : w.random < intRange) (url : CString) (n : ℕ) :
    ((List.range 10).map fun i => Node.uri (newGraphUri url ((nextId w)^[i] n))).Nodup := by
  have hlt : ∀ i j, i < j → j < 10 →
      newGraphUri url ((nextId w)^[i] n) ≠ newGraphUri url ((nextId w)^[j] n) := by
    intro i j hij hj heq
    obtain ⟨k, rfl⟩ := Nat.exists_eq_add_of_lt hij
    rw [show i + k + 1 = (k + 1) + i by omega, Function.iterate_add_apply] at heq
    exact nextId_ne hrandom (Nat.succ_pos k) (by omega) _ (newGraphUri_injective heq).symm
  refine List.Nodup.map_on (fun i hi j hj heq => ?_) List.nodup_range
  rw [List.mem_range] at hi hj
  have huri := Node.uri.inj heq
  by_contra hne
  rcases Nat.lt_or_gt_of_ne hne with hij | hji
  · exact hlt i j hij hj huri
  · exact hlt j i hji hi huri.symm

end RedStore.Service
