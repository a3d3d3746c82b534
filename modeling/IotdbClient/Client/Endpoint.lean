import IotdbClient.Client.Protocol
import IotdbClient.Library.RustText

/-!
# Endpoints as text

An endpoint is printed as `host:port`, with brackets around a host that has a colon in it, and parsed
from such a text: blanks around it are trimmed and brackets around the host are stripped, whether the
printer put them there or not.
-/

namespace IotdbClient

open Library

namespace Endpoint

/-- `strip_prefix('[')`, then `strip_suffix(']')`; the whole text where one of them fails. -/
def stripBrackets (hostPart : List Char) : List Char :=
  ((stripPrefix '[' hostPart).bind (stripSuffix ']')).getD hostPart

def parse (s : String) : Result Endpoint :=
  let s := trim s.toList
  match splitAtLast ':' s with
  | none => fail (.client s!"invalid node url '{String.ofList s}': expected host:port")
  | some (hostPart, portPart) =>
      match parseUnsigned (2 ^ 16) portPart with
      | none =>
          fail (.client <| s!"invalid node url '{String.ofList s}': " ++
            s!"bad port '{String.ofList portPart}'")
      | some port =>
          let host := stripBrackets hostPart
          if host.isEmpty then fail (.client s!"invalid node url '{String.ofList s}': empty host")
          else pure ⟨String.ofList host, UInt16.ofNat port⟩

/-- `Display`. -/
def display (endpoint : Endpoint) : String :=
  if endpoint.host.toList.contains ':' then s!"[{endpoint.host}]:{endpoint.port.toNat}"
  else s!"{endpoint.host}:{endpoint.port.toNat}"

/-! ## Brackets -/

theorem stripBrackets_bracketed (host : List Char) : stripBrackets ('[' :: (host ++ [']'])) = host := by
  simp [stripBrackets, stripPrefix, stripSuffix]

/-- In brackets. -/
def bracketed (host : List Char) : Bool := host.head? = some '[' && host.getLast? = some ']'

theorem stripBrackets_of_bracketed {host : List Char} (h : bracketed host = true) :
    (stripBrackets host).length < host.length := by
  cases host with
  | nil => cases h
  | cons c rest =>
      simp only [bracketed, List.head?_cons, Option.some.injEq, Bool.and_eq_true,
        decide_eq_true_eq] at h
      obtain ⟨rfl, hlast⟩ := h
      cases rest with
      | nil => simp at hlast
      | cons d rest =>
          rw [List.getLast?_cons_cons] at hlast
          simp [stripBrackets, stripPrefix, stripSuffix, hlast]

theorem stripBrackets_of_not_bracketed {host : List Char} (h : bracketed host = false) :
    stripBrackets host = host := by
  cases host with
  | nil => rfl
  | cons c rest =>
      by_cases hc : c = '['
      · subst hc
        cases rest with
        | nil => rfl
        | cons d rest =>
            have hlast : (d :: rest).getLast? ≠ some ']' := by
              intro hlast
              simp [bracketed, List.getLast?_cons_cons, hlast] at h
            simp [stripBrackets, stripPrefix, stripSuffix, hlast]
      · simp [stripBrackets, stripPrefix, hc]

/-! ## Printed endpoints -/

theorem colon_not_digit (n : Nat) : ':' ∉ Nat.toDigits 10 n := by
  intro h
  have hdigit := isDigit_of_toDigits h
  revert hdigit
  decide

/-- The parser on a text with a printed port at its end. -/
theorem parse_port (front : List Char) (port : UInt16) :
    parse (String.ofList (front ++ ':' :: Nat.toDigits 10 port.toNat)) =
      let host := stripBrackets (front.dropWhile isWhitespace)
      let s := String.ofList (front.dropWhile isWhitespace ++ ':' :: Nat.toDigits 10 port.toNat)
      if host.isEmpty then fail (.client s!"invalid node url '{s}': empty host")
      else pure ⟨String.ofList host, port⟩ := by
  have htrim : trim (front ++ ':' :: Nat.toDigits 10 port.toNat) =
      front.dropWhile isWhitespace ++ ':' :: Nat.toDigits 10 port.toNat := by
    apply trim_append (by decide)
    intro d hd
    exact isWhitespace_of_isDigit (isDigit_of_toDigits (List.mem_of_getLast? hd))
  have hport : parseUnsigned (2 ^ 16) (Nat.toDigits 10 port.toNat) = some port.toNat :=
    parseUnsigned_toDigits port.toNat_lt
  unfold parse
  simp only [String.toList_ofList, htrim, splitAtLast_append (colon_not_digit port.toNat), hport,
    UInt16.ofNat_toNat]

/-- What stands in front of the last colon of a printed endpoint. -/
def displayHost (host : List Char) : List Char :=
  if host.contains ':' then '[' :: (host ++ [']']) else host

theorem display_eq (endpoint : Endpoint) :
    display endpoint = String.ofList
      (displayHost endpoint.host.toList ++ ':' :: Nat.toDigits 10 endpoint.port.toNat) := by
  have htext : ∀ text : String, toString text = text := fun _ ↦ rfl
  apply String.toList_inj.mp
  unfold display displayHost
  split <;> simp [htext]

theorem dropWhile_length_lt {c : Char} (rest : List Char) (hc : isWhitespace c = true) :
    ((c :: rest).dropWhile isWhitespace).length < (c :: rest).length := by
  rw [List.dropWhile_cons_of_pos hc, List.length_cons]
  have hle := (List.dropWhile_sublist isWhitespace (l := rest)).length_le
  omega

theorem stripBrackets_length_le (host : List Char) : (stripBrackets host).length ≤ host.length := by
  cases hbrackets : bracketed host with
  | true => exact (stripBrackets_of_bracketed hbrackets).le
  | false => rw [stripBrackets_of_not_bracketed hbrackets]

/-- A host without colons is read back if and only if neither blanks nor brackets are taken off. -/
theorem strip_eq_iff (host : List Char) :
    stripBrackets (host.dropWhile isWhitespace) = host ↔
      ¬(host.head?.any isWhitespace = true) ∧ bracketed host = false := by
  cases host with
  | nil => exact iff_of_true rfl ⟨nofun, rfl⟩
  | cons c rest =>
      rw [List.head?_cons, Option.any_some]
      cases hc : isWhitespace c with
      | true =>
          -- the trimmed host is shorter
          refine iff_of_false ?_ fun h ↦ h.1 rfl
          intro hsame
          have hshort := dropWhile_length_lt rest hc
          have hle := stripBrackets_length_le ((c :: rest).dropWhile isWhitespace)
          rw [hsame] at hle
          omega
      | false =>
          rw [List.dropWhile_cons_of_neg (by simp [hc])]
          cases hbrackets : bracketed (c :: rest) with
          | true =>
              -- the host without its brackets is shorter
              refine iff_of_false ?_ nofun
              intro hsame
              have hshort := stripBrackets_of_bracketed hbrackets
              rw [hsame] at hshort
              exact Nat.lt_irrefl _ hshort
          | false =>
              exact iff_of_true (stripBrackets_of_not_bracketed hbrackets) ⟨nofun, rfl⟩

/-- Printing and parsing again. -/
theorem parse_display (host : String) (port : UInt16) :
    parse (display ⟨host, port⟩) = .ok ⟨host, port⟩ ↔
      host.toList ≠ [] ∧
        stripBrackets ((displayHost host.toList).dropWhile isWhitespace) = host.toList := by
  rw [display_eq, parse_port]
  generalize stripBrackets ((displayHost host.toList).dropWhile isWhitespace) = read
  cases read with
  | nil =>
      refine iff_of_false nofun ?_
      intro h
      exact h.1 h.2.symm
  | cons c rest =>
      constructor
      · intro hsame
        have hendpoint := Except.ok.inj hsame
        have hhost : String.ofList (c :: rest) = host := congrArg Endpoint.host hendpoint
        rw [← hhost, String.toList_ofList]
        exact ⟨nofun, rfl⟩
      · intro h
        change Except.ok _ = _
        rw [h.2, String.ofList_toList]

theorem parse_display_iff (host : String) (port : UInt16) :
    parse (display ⟨host, port⟩) = .ok ⟨host, port⟩ ↔
      host ≠ "" ∧ (':' ∈ host.toList ∨ ¬(host.toList.head?.any isWhitespace = true) ∧
        ¬(host.toList.head? = some '[' ∧ host.toList.getLast? = some ']')) := by
  have hempty : host ≠ "" ↔ host.toList ≠ [] := by
    rw [ne_eq, ne_eq, String.toList_eq_nil_iff]
  rw [parse_display, hempty]
  refine and_congr_right fun _ ↦ ?_
  unfold displayHost
  by_cases hcolon : ':' ∈ host.toList
  · -- the printer's own brackets keep the rest of the host from the parser
    have hcontains : host.toList.contains ':' = true := by simpa using hcolon
    have hblank : isWhitespace '[' = false := by decide
    rw [if_pos hcontains, List.dropWhile_cons_of_neg (by simp [hblank]), stripBrackets_bracketed]
    exact iff_of_true rfl (.inl hcolon)
  · have hcontains : ¬host.toList.contains ':' = true := by simpa using hcolon
    rw [if_neg hcontains, strip_eq_iff]
    simp [hcolon, bracketed]

theorem display_bracketed_iff (host : String) (port : UInt16) :
    display ⟨host, port⟩ = s!"[{host}]:{port.toNat}" ↔ ':' ∈ host.toList := by
  by_cases hcolon : ':' ∈ host.toList
  · have hcontains : host.toList.contains ':' = true := by simpa using hcolon
    exact iff_of_true (if_pos hcontains) hcolon
  · have hcontains : ¬host.toList.contains ':' = true := by simpa using hcolon
    have hplain : display ⟨host, port⟩ = s!"{host}:{port.toNat}" := if_neg hcontains
    have htext : ∀ text : String, toString text = text := fun _ ↦ rfl
    rw [hplain]
    refine iff_of_false ?_ hcolon
    intro hsame
    have hlength := congrArg (fun text : String ↦ text.toList.length) hsame
    simp [htext] at hlength
    omega

end Endpoint

/-- A printed endpoint is parsed as itself if and only if its host is not empty and, without a colon
in it, neither begins with a blank nor stands in brackets; the printer puts brackets around exactly
the hosts with a colon.  Host names and address literals consist of graphic characters other than an
opening bracket. -/
theorem endpoint_text_roundTrip (host : String) (port : UInt16) :
    (Endpoint.parse (Endpoint.display ⟨host, port⟩) = .ok ⟨host, port⟩ ↔
      host ≠ "" ∧ (':' ∈ host.toList ∨ ¬(host.toList.head?.any isWhitespace = true) ∧
        ¬(host.toList.head? = some '[' ∧ host.toList.getLast? = some ']'))) ∧
    (Endpoint.display ⟨host, port⟩ = s!"[{host}]:{port.toNat}" ↔ ':' ∈ host.toList) ∧
    (host ≠ "" ∧ (∀ c ∈ host.toList, 0x21 ≤ c.toNat ∧ c.toNat ≤ 0x7E ∧ c ≠ '[') →
      Endpoint.parse (Endpoint.display ⟨host, port⟩) = .ok ⟨host, port⟩) := by
  refine ⟨Endpoint.parse_display_iff host port, Endpoint.display_bracketed_iff host port, ?_⟩
  intro h
  rw [Endpoint.parse_display_iff]
  refine ⟨h.1, .inr ⟨?_, ?_⟩⟩
  · cases hfirst : host.toList.head? with
    | none => nofun
    | some c =>
        have hc := h.2 c (List.mem_of_head? hfirst)
        simp [isWhitespace_of_graphic hc.1 hc.2.1]
  · intro hbrackets
    exact (h.2 '[' (List.mem_of_head? hbrackets.1)).2.2 rfl

end IotdbClient
