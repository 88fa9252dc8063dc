/-
  ReceiverLink.Proofs.Endpoint.Naming
  ────────────────────────────────
  **Which texts name a network endpoint, and what they make of it.**

  A text, trimmed, names a port alone or a host and a port, parted by its last
  colon (`Names`).  A call with a text that names one succeeds and changes just
  what is named; a call with any other text is refused and changes nothing.
  The host is never blank at its start, whatever calls came before, so an
  endpoint written out as text names itself.

  A call works on the endpoint in place, so that a refusal between two
  assignments would show (`redirect`); it is shown to agree with the function
  from endpoint to endpoint that the rest of the program uses.

  Main statements:
    * `redirect_eq` — in place or not, a call does the same;
    * `redirect_exact` — every call after any calls on a fresh endpoint.
-/
import ReceiverLink.Endpoint.Basic
import ReceiverLink.Proofs.Text.Shape

namespace ReceiverLink

open Text (Sharp Trims Numeral)

namespace TcpEndpoint

/-! ## §1. Calls in place. -/

/-- A call made on the endpoint in place, check by check and assignment by assignment. -/
def redirect (text : String) : EStateM TransportError TcpEndpoint Unit := do
  let trimmed := Text.trim text.toList
  let refused := TransportError.invalidPort (String.ofList trimmed)
  match splitLastColon trimmed with
  | some (host, number) =>
      let some port := port? number | throw refused
      if host = [] then
        throw refused
      modify fun e => { e with host := String.ofList host }
      modify fun e => { e with port }
  | none =>
      let some port := port? trimmed | throw refused
      modify fun e => { e with port }

/-- What a call leaves, be it refused or not. -/
def redirected (e : TcpEndpoint) (text : String) : TcpEndpoint :=
  match (redirect text).run e with
  | .ok _ e' => e'
  | .error _ e' => e'

/-- A call in place gives the new endpoint, or refuses and leaves the old one: no refusal comes
between the assignments. -/
theorem redirect_eq (e : TcpEndpoint) (text : String) :
    (redirect text).run e =
      match e.setPort text with
      | .ok e' => .ok () e'
      | .error err => .error err e := by
  cases hsplit : splitLastColon (Text.trim text.toList) with
  | none =>
      cases hport : port? (Text.trim text.toList) <;>
        simp only [redirect, setPort, hsplit, hport] <;> rfl
  | some parts =>
      cases hport : port? parts.2 with
      | none =>
          simp only [redirect, setPort, hsplit, hport]
          rfl
      | some port =>
          by_cases hhost : parts.1 = [] <;>
            simp only [redirect, setPort, hsplit, hport, hhost, ↓reduceIte] <;> rfl

/-! ## §2. The texts that name an endpoint. -/

/-- What a text without blanks at its ends names: a port alone, or a host that is not empty and a
port, parted by the last colon of the text. -/
inductive Names : List Char → Option (List Char) → UInt16 → Prop
  | port {number : List Char} {port : UInt16} (hnumber : Numeral number port.toNat) :
      Names number none port
  | place {host number : List Char} {port : UInt16} (hhost : host ≠ []) (hlast : ':' ∉ number)
      (hnumber : Numeral number port.toNat) :
      Names (host ++ ':' :: number) (some host) port

/-- The endpoint with the named port, and with the host if one is named. -/
def renamed (e : TcpEndpoint) (host : Option (List Char)) (port : UInt16) : TcpEndpoint :=
  { e with host := (host.map String.ofList).getD e.host, port }

/-- The texts that are read as ports. -/
theorem port?_eq_some_iff {s : List Char} {port : UInt16} :
    port? s = some port ↔ Numeral s port.toNat := by
  have hbound : port.toNat < 65536 := port.toNat_lt
  rw [port?, Option.map_eq_some_iff]
  constructor
  · rintro ⟨n, hread, rfl⟩
    obtain ⟨hnumeral, hle⟩ := Text.natural?_eq_some_iff.mp hread
    have hvalue : n.toUInt16.toNat = n := UInt16.toNat_ofNat_of_lt' (Nat.lt_succ_of_le hle)
    rwa [hvalue]
  · intro hnumeral
    exact ⟨port.toNat, Text.natural?_eq_some_iff.mpr ⟨hnumeral, by omega⟩, by simp⟩

/-- A text without a colon passes the search for one, also when read from the end. -/
theorem colonless {s : List Char} (h : ':' ∉ s) : ∀ c ∈ s.reverse, decide (c ≠ ':') = true := by
  intro c hc
  rw [decide_eq_true_eq]
  rintro rfl
  exact h (List.mem_reverse.mp hc)

/-- The parts before and after the last colon. -/
theorem splitLastColon_append {host number : List Char} (hlast : ':' ∉ number) :
    splitLastColon (host ++ ':' :: number) = some (host, number) := by
  have hreverse : (host ++ ':' :: number).reverse = number.reverse ++ ':' :: host.reverse := by simp
  rw [splitLastColon, hreverse, List.dropWhile_append_of_pos (colonless hlast),
    List.takeWhile_append_of_pos (colonless hlast)]
  simp

theorem splitLastColon_of_notMem {s : List Char} (h : ':' ∉ s) : splitLastColon s = none := by
  rw [splitLastColon, List.dropWhile_eq_nil_iff.mpr (colonless h)]

/-- A text without a colon, or around its last one. -/
theorem colon_cases (s : List Char) :
    ':' ∉ s ∨ ∃ host number, s = host ++ ':' :: number ∧ ':' ∉ number := by
  by_cases h : ':' ∈ s
  · obtain ⟨back, front, hs, hback⟩ := List.eq_append_cons_of_mem (List.mem_reverse.mpr h)
    refine .inr ⟨front.reverse, back.reverse, ?_, by rwa [List.mem_reverse]⟩
    rw [← List.reverse_reverse s, hs]
    simp
  · exact .inl h

/-- A number holds no colon. -/
theorem numeral_notMem_colon {s : List Char} {n : Nat} (h : Numeral s n) : ':' ∉ s := by
  intro hmem
  exact absurd (h.chars ':' hmem) (by decide)

/-- A call with a text that names an endpoint changes what the text names. -/
theorem setPort_of_names (e : TcpEndpoint) {text : String} {host : Option (List Char)}
    {port : UInt16} (h : Names (Text.trim text.toList) host port) :
    e.setPort text = .ok (e.renamed host port) := by
  generalize htrim : Text.trim text.toList = trimmed at h
  cases h with
  | port hnumber =>
      rw [setPort, htrim, splitLastColon_of_notMem (numeral_notMem_colon hnumber),
        port?_eq_some_iff.mpr hnumber]
      rfl
  | place hhost hlast hnumber =>
      rw [setPort, htrim, splitLastColon_append hlast]
      simp only [port?_eq_some_iff.mpr hnumber, hhost, ↓reduceIte]
      rfl

/-- A call with any other text is refused. -/
theorem setPort_of_nameless (e : TcpEndpoint) {text : String}
    (h : ∀ host port, ¬ Names (Text.trim text.toList) host port) :
    e.setPort text = .error (.invalidPort (String.ofList (Text.trim text.toList))) := by
  generalize htrim : Text.trim text.toList = trimmed at h ⊢
  rcases colon_cases trimmed with hcolon | ⟨host, number, rfl, hlast⟩
  · rw [setPort, htrim, splitLastColon_of_notMem hcolon]
    cases hport : port? trimmed with
    | none => rfl
    | some port => exact absurd (.port (port?_eq_some_iff.mp hport)) (h none port)
  · rw [setPort, htrim, splitLastColon_append hlast]
    cases hport : port? number with
    | none => simp only [hport]
    | some port =>
        by_cases hhost : host = []
        · simp only [hport, hhost, ↓reduceIte]
        · exact absurd (.place hhost hlast (port?_eq_some_iff.mp hport)) (h (some host) port)

/-! ## §3. Endpoints name themselves. -/

/-- The host starts with a character that is not blank. -/
def Spelled (e : TcpEndpoint) : Prop :=
  ∃ c cs, e.host.toList = c :: cs ∧ ¬ Text.isBlank c

/-- No digit is blank. -/
theorem not_isBlank_of_isDigit {c : Char} (h : c.isDigit) : ¬ Text.isBlank c := by
  have hvalue : 48 ≤ c.toNat ∧ c.toNat ≤ 57 := by
    simpa [Char.isDigit, UInt32.le_iff_toNat_le] using h
  simp only [Text.isBlank, Bool.or_eq_true, Bool.and_eq_true, decide_eq_true_eq, beq_iff_eq]
  omega

theorem toList_text (e : TcpEndpoint) :
    e.text.toList = e.host.toList ++ ':' :: Nat.toDigits 10 e.port.toNat := by
  simp [text, Text.decimal]

/-- An endpoint written out has no blanks at its ends. -/
theorem Spelled.sharp {e : TcpEndpoint} (h : e.Spelled) : Sharp e.text.toList := by
  obtain ⟨c, cs, hhost, hblank⟩ := h
  rw [toList_text, hhost]
  constructor
  · intro d hd
    cases hd
    exact hblank
  · intro d hd
    have hlast : d ∈ (Nat.toDigits 10 e.port.toNat).getLast? := by
      rwa [List.getLast?_append_cons, List.getLast?_cons_of_ne_nil Nat.toDigits_ne_nil] at hd
    exact not_isBlank_of_isDigit
      (Nat.isDigit_of_mem_toDigits (by decide) le_rfl (List.mem_of_getLast? hlast))

/-- An endpoint written out names itself. -/
theorem Spelled.setPort_text {e : TcpEndpoint} (h : e.Spelled) : e.setPort e.text = .ok e := by
  have htrim : Text.trim e.text.toList = e.text.toList := (Text.trims_iff.mp h.sharp.trims).symm
  have hnumber : Numeral (Nat.toDigits 10 e.port.toNat) e.port.toNat := Text.numeral_toDigits _
  have hnames : Names (Text.trim e.text.toList) (some e.host.toList) e.port := by
    obtain ⟨c, cs, hhost, -⟩ := h
    rw [htrim, toList_text]
    exact .place (by simp [hhost]) (numeral_notMem_colon hnumber) hnumber
  rw [setPort_of_names e hnames, renamed, Option.map_some, Option.getD_some, String.ofList_toList]

/-- What a call leaves has a host that is not blank at its start. -/
theorem Spelled.renamed {e : TcpEndpoint} (h : e.Spelled) {t : List Char} (ht : Sharp t)
    {host : Option (List Char)} {port : UInt16} (hnames : Names t host port) :
    (e.renamed host port).Spelled := by
  cases hnames with
  | port => exact h
  | @place host number _ hhost =>
      obtain ⟨c, cs, rfl⟩ := List.exists_cons_of_ne_nil hhost
      exact ⟨c, cs, by simp [TcpEndpoint.renamed], ht.start c rfl⟩

/-! ## §4. Sequences of calls. -/

/-- Whatever a call does, the host keeps its start. -/
theorem Spelled.redirected {e : TcpEndpoint} (h : e.Spelled) (text : String) :
    (e.redirected text).Spelled := by
  rw [TcpEndpoint.redirected, redirect_eq]
  by_cases hnames : ∃ host port, Names (Text.trim text.toList) host port
  · obtain ⟨host, port, hnames⟩ := hnames
    rw [setPort_of_names e hnames]
    exact h.renamed (Text.trims_trim _).toSharp hnames
  · rw [setPort_of_nameless e fun host port hport => hnames ⟨host, port, hport⟩]
    exact h

/-- A fresh endpoint has a host that is not blank at its start, and so has every later one. -/
theorem spelled_run (texts : List String) : (texts.foldl redirected {}).Spelled := by
  have hfresh : ({} : TcpEndpoint).Spelled := ⟨'1', "92.168.3.1".toList, by decide, by decide⟩
  generalize ({} : TcpEndpoint) = e at hfresh
  induction texts generalizing e with
  | nil => exact hfresh
  | cons text texts ih => exact ih _ (hfresh.redirected text)

/-- **Calls are exact, atomic, and undone by the endpoint's own text.**  After any calls on a fresh
endpoint, and with `t` the next text without the blanks at its ends: if `t` names an endpoint, the
call succeeds and changes just the port and, if it is named, the host; if `t` names none, the call
is refused for `t` and leaves the endpoint as it was.  And the endpoint's own text is always taken,
and changes nothing. -/
theorem redirect_exact (texts : List String) (text : String) :
    let e := texts.foldl redirected {}
    ∃ t, (∀ s, Trims text.toList s ↔ s = t) ∧
      (∀ host port, Names t host port → (redirect text).run e
        = .ok () { e with host := (host.map String.ofList).getD e.host, port }) ∧
      ((∀ host port, ¬ Names t host port) →
        (redirect text).run e = .error (.invalidPort (String.ofList t)) e) ∧
      (redirect e.text).run e = .ok () e := by
  intro e
  refine ⟨Text.trim text.toList, fun s => Text.trims_iff, fun host port hnames => ?_,
    fun hnameless => ?_, ?_⟩
  · rw [redirect_eq, setPort_of_names e hnames, renamed]
  · rw [redirect_eq, setPort_of_nameless e hnameless]
  · rw [redirect_eq, (spelled_run texts).setPort_text]

/-- The host may hold colons and blanks, the number a sign and leading zeros. -/
example : redirected {} " ::1 :+080\u00a0" = { host := "::1 ", port := 80 } := by decide +kernel

end TcpEndpoint

end ReceiverLink
