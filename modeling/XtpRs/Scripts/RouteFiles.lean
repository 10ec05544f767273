import XtpRs.Scripts.Ip4Ranges
import XtpRs.Scripts.Ip6Ranges
import XtpRs.Scripts.SetupOrder

/-!
# The files of Chinese networks

`update-chnroute.sh` writes a file for each family, with one `nft` set, which `setup-xtp-rs.sh`
includes into its table if the file begins a set of the right name (`routeFileOk`). The elements of
the set stand one to a line between `elements = {` and the closing brace (`nftElements`).

## Main definitions

* `filterRoutes`, `routeBody`, `routeFile`: the text of the file for a downloaded text.
* `nftElements`: the elements as they are read from such a file.

## Main results

* `nftElements_routeFile_v4`, `nftElements_routeFile_v6`: the elements read back.
* `chinaIps_iff`: the addresses of the IPv4 set.
-/

namespace XtpRs.Scripts

open Lib

/-! ### The text of a file -/

/-- The lines printed before the elements. -/
def routeHeader : Family → List Str
  | .v4 => [ascii "set china_ips \x7b", ascii "  type ipv4_addr;",
      ascii "  flags constant, interval;", ascii "  auto-merge;", ascii "  elements = \x7b"]
  | .v6 => [ascii "set china_ip6s \x7b", ascii "  type ipv6_addr;",
      ascii "  flags constant, interval;", ascii "  auto-merge;", ascii "  elements = \x7b"]

/-- The lines printed behind the elements. -/
def routeFooter : List Str :=
  [ascii "  \x7d", ascii "\x7d"]

/-- The file that the filter writes: networks in lines, or the lines of the ranges. -/
def filterRoutes : Family → Str → Str
  | .v4, src => ip4Filter src
  | .v6, src => (ip6Filter (fileLines src)).out

/-- What is printed between header and footer: by awk, or by `cat`. -/
def routeBody : Family → Str → Str
  | .v4, filtered => ip4Elements (fileLines filtered)
  | .v6, filtered => filtered

/-- The file for a downloaded text. -/
def routeFile (f : Family) (src : Str) : Str :=
  unlines (routeHeader f) ++ routeBody f (filterRoutes f src) ++ unlines routeFooter

/-- Something is left by the filter: `[ ! -s ... ]`, and the exit status of the program. -/
def routesFound (f : Family) (src : Str) : Bool :=
  match f with
  | .v4 => !(ip4Filter src).isEmpty
  | .v6 => (ip6Filter (fileLines src)).status == 0

/-- How the line of the set begins. -/
def setName : Family → Str
  | .v4 => ascii "set china_ips"
  | .v6 => ascii "set china_ip6s"

/-- `[ -s file ] && grep -q '^set china_ips' file`, or with `china_ip6s`. -/
def routeFileOk (f : Family) (file : Str) : Bool :=
  !file.isEmpty && (fileLines file).any ((setName f).isPrefixOf ·)

/-! ### Reading a set -/

/-- The lines between `elements = {` and the closing brace. -/
def elementLines (file : Str) : List Str :=
  ((fileLines file).dropWhile (· ≠ ascii "  elements = \x7b")).tail.takeWhile (· ≠ ascii "  \x7d")

/-- The elements of the set of a file, separated by commas. -/
def nftElements (file : Str) : List Str :=
  (elementLines file).flatMap (words (· ∈ [0x20, 0x2c]))

/-- A text that can stand as an element: not empty, without blanks, commas and newlines. -/
structure IsElement (e : Str) : Prop where
  ne_nil : e ≠ []
  notMem : ∀ c ∈ e, c ≠ 0x20 ∧ c ≠ 0x2c ∧ c ≠ 0x0a

theorem words_elementLine {e : Str} (he : IsElement e) :
    words (· ∈ [0x20, 0x2c]) (elementLine e) = [e] := by
  have hword : ∀ c ∈ e, decide (c ∈ [(0x20 : UInt8), 0x2c]) = false := fun c hc => by
    obtain ⟨hspace, hcomma, -⟩ := he.notMem c hc
    simp [hspace, hcomma]
  have hline : elementLine e =
      0x20 :: 0x20 :: 0x20 :: 0x20 :: 0x20 :: 0x20 :: (e ++ 0x2c :: []) := rfl
  rw [hline]
  iterate 6 rw [words_cons (by decide)]
  rw [words_append_cons (by decide), words_nil, List.append_nil, words_of_forall he.ne_nil hword]

/-- The lines of a file with these elements. -/
def routeLines (f : Family) (elements : List Str) : List Str :=
  routeHeader f ++ elements.map elementLine ++ routeFooter

theorem elementLines_routeLines (f : Family) {file : Str} {elements : List Str}
    (h : fileLines file = routeLines f elements) :
    elementLines file = elements.map elementLine := by
  have hnot (e : Str) : elementLine e ≠ ascii "  \x7d" := fun heq => by
    have hthird := congrArg (·[2]?) heq
    exact absurd hthird (by simp [elementLine, ascii])
  have hclosed : (elements.map elementLine ++ routeFooter).takeWhile (· ≠ ascii "  \x7d") =
      elements.map elementLine := by
    rw [List.takeWhile_append_of_pos fun l hl => by
      obtain ⟨e, -, rfl⟩ := List.mem_map.mp hl
      simpa using hnot e]
    simp [routeFooter]
  have hopen : ((routeLines f elements).dropWhile (· ≠ ascii "  elements = \x7b")).tail =
      elements.map elementLine ++ routeFooter := by
    cases f <;> rfl
  rw [elementLines, h, hopen, hclosed]

/-- The elements of a file are read back. -/
theorem nftElements_of_fileLines (f : Family) {file : Str} {elements : List Str}
    (helements : ∀ e ∈ elements, IsElement e) (h : fileLines file = routeLines f elements) :
    nftElements file = elements := by
  rw [nftElements, elementLines_routeLines f h, List.flatMap_map]
  clear h
  induction elements with
  | nil => rfl
  | cons e elements ih =>
      obtain ⟨he, helements⟩ := List.forall_mem_cons.mp helements
      rw [List.flatMap_cons, words_elementLine he, ih helements, List.singleton_append]

theorem newline_notMem_routeLines (f : Family) {elements : List Str}
    (helements : ∀ e ∈ elements, IsElement e) : ∀ l ∈ routeLines f elements, 0x0a ∉ l := by
  have hheader : ∀ l ∈ routeHeader f, 0x0a ∉ l := by
    cases f <;> decide
  have hfooter : ∀ l ∈ routeFooter, 0x0a ∉ l := by
    decide
  intro l hl
  rw [routeLines, List.mem_append, List.mem_append] at hl
  obtain (hl | hl) | hl := hl
  · exact hheader l hl
  · obtain ⟨e, he, rfl⟩ := List.mem_map.mp hl
    rw [elementLine, List.mem_append, List.mem_append]
    rintro ((h | h) | h)
    · exact absurd h (by decide)
    · exact ((helements e he).notMem _ h).2.2 rfl
    · exact absurd h (by decide)
  · exact hfooter l hl

/-- What is read from a file with these elements: the elements, and that it is such a file. -/
theorem read_routeLines (f : Family) {elements : List Str}
    (helements : ∀ e ∈ elements, IsElement e) :
    nftElements (unlines (routeLines f elements)) = elements ∧
      routeFileOk f (unlines (routeLines f elements)) = true := by
  have hlines := fileLines_unlines (newline_notMem_routeLines f helements)
  refine ⟨nftElements_of_fileLines f helements hlines, ?_⟩
  have hne : (unlines (routeLines f elements)).isEmpty = false := by
    cases f <;> rfl
  rw [routeFileOk, hne, hlines]
  cases f <;> rfl

/-! ### The two families -/

/-- The ranges of a text. -/
def ip6Elements (src : Str) : List Str :=
  (fileLines src).filterMap fun line =>
    match ip6Rule line with
    | .emit first last => some (first ++ 0x2d :: last)
    | _ => none

theorem ip6Filter_out_eq (src : Str) :
    (ip6Filter (fileLines src)).out = unlines ((ip6Elements src).map elementLine) := by
  rw [(ip6Filter_out _).1, ip6Elements]
  induction fileLines src with
  | nil => rfl
  | cons line lines ih =>
      rw [List.flatMap_cons, ih, List.filterMap_cons]
      cases ip6Rule line with
      | next => rfl
      | bad => rfl
      | emit first last => simp [Ip6Rule.text, unlines, elementLine, ascii]

theorem isElement_ip6Elements {src e : Str} (he : e ∈ ip6Elements src) : IsElement e := by
  obtain ⟨line, -, hline⟩ := List.mem_filterMap.mp he
  cases hrule : ip6Rule line with
  | next => simp [hrule] at hline
  | bad => simp [hrule] at hline
  | emit first last =>
      obtain rfl : first ++ 0x2d :: last = e := by simpa [hrule] using hline
      obtain ⟨-, -, hfirst, hlast, -⟩ := (ip6Rule_eq_emit_iff line first last).mp hrule
      obtain ⟨gs, hgs⟩ := (ip6Ok_iff first).mp hfirst
      obtain ⟨hs, hhs⟩ := (ip6Ok_iff last).mp hlast
      have hall : ∀ c : UInt8, c = 0x3a ∨ (toDigit 16 c).isSome →
          c ≠ 0x20 ∧ c ≠ 0x2c ∧ c ≠ 0x0a := by
        decide +kernel
      refine ⟨by simp, fun c hc => ?_⟩
      obtain hc | hc := List.mem_append.mp hc
      · exact hall c (hgs.of_mem hc)
      · obtain rfl | hc := List.mem_cons.mp hc
        · decide
        · exact hall c (hhs.of_mem hc)

/-- The networks of a text, each with its prefix. -/
def ip4Networks (src : Str) : List Str :=
  (ip4Texts src).map withPrefix

theorem isElement_ip4Networks {src e : Str} (he : e ∈ ip4Networks src) : IsElement e := by
  obtain ⟨t, ht, rfl⟩ := List.mem_map.mp he
  obtain ⟨line, -, net, a, b, -, -, -, hnet, -⟩ := mem_ip4Texts.mp ht
  refine ⟨hnet.withPrefix.ne_nil, fun c hc => ?_⟩
  obtain ⟨-, hnewline, hspace, hcomma⟩ := spaceChars_of_isIp4Char (hnet.withPrefix.isIp4Char hc)
  exact ⟨hspace, hcomma, hnewline⟩

/-- The elements of the file of a family. -/
def routeElements : Family → Str → List Str
  | .v4, src => ip4Networks src
  | .v6, src => ip6Elements src

theorem isElement_routeElements (f : Family) (src : Str) :
    ∀ e ∈ routeElements f src, IsElement e := by
  intro e he
  cases f with
  | v4 => exact isElement_ip4Networks he
  | v6 => exact isElement_ip6Elements he

theorem unlines_ne_nil {lines : List Str} : unlines lines ≠ [] ↔ lines ≠ [] := by
  cases lines <;> simp [unlines]

/-- The status of the program tells whether there is an element. -/
theorem status_iff (src : Str) : (ip6Filter (fileLines src)).status = 0 ↔ ip6Elements src ≠ [] := by
  have hcnt : (ip6Filter (fileLines src)).cnt = (ip6Elements src).length := by
    rw [(ip6Filter_out _).2.1, ip6Elements]
    induction fileLines src with
    | nil => rfl
    | cons line lines ih =>
        rw [List.countP_cons, ih, List.filterMap_cons]
        cases ip6Rule line <;> simp [Ip6Rule.isEmit]
  rw [Ip6Filter.status, hcnt]
  cases ip6Elements src <;> simp

theorem routesFound_iff (f : Family) (src : Str) :
    routesFound f src = true ↔ routeElements f src ≠ [] := by
  cases f with
  | v4 =>
      have hne : ip4Filter src ≠ [] ↔ ip4Texts src ≠ [] := unlines_ne_nil
      rw [routesFound, Bool.not_eq_true', ← Bool.not_eq_true, List.isEmpty_iff, ← ne_eq, hne]
      simp [routeElements, ip4Networks]
  | v6 =>
      rw [routesFound, beq_iff_eq, status_iff]
      rfl

theorem unlines_append (k l : List Str) : unlines (k ++ l) = unlines k ++ unlines l :=
  List.flatMap_append

/-- With something left by the filter, the file has a line for each element. -/
theorem routeFile_eq (f : Family) {src : Str} (h : routesFound f src = true) :
    routeFile f src = unlines (routeLines f (routeElements f src)) := by
  have hbody : routeBody f (filterRoutes f src) =
      unlines ((routeElements f src).map elementLine) := by
    cases f with
    | v4 =>
        have hne : ip4Texts src ≠ [] := by
          simpa [routeElements, ip4Networks] using (routesFound_iff .v4 src).mp h
        rw [routeBody, filterRoutes, fileLines_ip4Filter, ip4Elements_eq hne, routeElements,
          ip4Networks, List.map_map]
        rfl
    | v6 => exact ip6Filter_out_eq src
  rw [routeFile, hbody, routeLines, unlines_append, unlines_append]

/-- A file that is written is accepted by the setup, and its elements are read back. -/
theorem read_routeFile (f : Family) {src : Str} (h : routesFound f src = true) :
    nftElements (routeFile f src) = routeElements f src ∧
      routeFileOk f (routeFile f src) = true := by
  rw [routeFile_eq f h]
  exact read_routeLines f (isElement_routeElements f src)

/-! ### What the sets cover -/

/-- The addresses of the IPv4 set are those of the networks of the text. -/
theorem chinaIps_iff {src : Str} (h : routesFound .v4 src = true) :
    ∃ nets, List.Forall₂ Ip4Cidr (nftElements (routeFile .v4 src)) nets ∧
      ∀ ip, anyContains nets ip = true ↔
        ∃ line ∈ fileLines src, ∃ t net, Ip4Line line t net ∧ net.contains ip = true := by
  have hread : nftElements (routeFile .v4 src) = ip4Networks src := (read_routeFile .v4 h).1
  have hall : ∀ e ∈ ip4Networks src, ∃ net, Ip4Cidr e net := fun e he => by
    obtain ⟨t, ht, rfl⟩ := List.mem_map.mp he
    obtain ⟨line, -, net, a, b, -, -, -, hnet, -⟩ := mem_ip4Texts.mp ht
    exact ⟨net, hnet.withPrefix⟩
  obtain ⟨nets, hnets⟩ := exists_nets hall
  refine ⟨nets, hread ▸ hnets, fun ip => ?_⟩
  rw [anyContains_iff hnets]
  constructor
  · rintro ⟨e, he, net, hnet, hip⟩
    obtain ⟨t, ht, rfl⟩ := List.mem_map.mp he
    obtain ⟨line, hline, net', a, b, heq, ha, hb, hnet', hlen⟩ := mem_ip4Texts.mp ht
    obtain rfl := hnet.unique hnet'.withPrefix
    exact ⟨line, hline, t, net, ⟨a, b, heq, ha, hb, hnet', hlen⟩, hip⟩
  · rintro ⟨line, hline, t, net, hnet, hip⟩
    have ht : t ∈ ip4Texts src := mem_ip4Texts.mpr ⟨line, hline, net, hnet⟩
    obtain ⟨a, b, -, -, -, hcidr, -⟩ := hnet
    exact ⟨withPrefix t, List.mem_map_of_mem ht, net, hcidr.withPrefix, hip⟩

/-- An element of the IPv6 set and its ends as numbers. -/
def Ip6Range (e : Str) (lo hi : ℕ) : Prop :=
  ∃ first last gs hs, e = first ++ 0x2d :: last ∧ Ip6Literal first gs ∧ Ip6Literal last hs ∧
    lo = ip6Value gs ∧ hi = ip6Value hs

/-- A line with a range, and its ends. -/
def Ip6Line (line : Str) (lo hi : ℕ) : Prop :=
  ∃ first last gs hs, ip6Rule line = .emit first last ∧ Ip6Literal first gs ∧
    Ip6Literal last hs ∧ lo = ip6Value gs ∧ hi = ip6Value hs

theorem dash_notMem {t : Str} {gs : List Str} (h : Ip6Literal t gs) : 0x2d ∉ t := fun hmem =>
  absurd (h.of_mem hmem) (by decide)

theorem Ip6Range.unique {e : Str} {lo hi lo' hi' : ℕ} (h : Ip6Range e lo hi)
    (h' : Ip6Range e lo' hi') : lo = lo' ∧ hi = hi' := by
  obtain ⟨first, last, gs, hs, rfl, hgs, hhs, rfl, rfl⟩ := h
  obtain ⟨first', last', gs', hs', heq, hgs', hhs', rfl, rfl⟩ := h'
  obtain ⟨rfl, -, rfl⟩ :=
    (List.append_cons_inj_of_notMem (dash_notMem hgs) (dash_notMem hhs)).mp heq
  exact ⟨ip6Value_unique hgs hgs', ip6Value_unique hhs hhs'⟩

/-- The addresses of the IPv6 set are those of the ranges of the text. -/
theorem chinaIp6s_iff {src : Str} (h : routesFound .v6 src = true) (v : ℕ) :
    (∃ e ∈ nftElements (routeFile .v6 src), ∃ lo hi, Ip6Range e lo hi ∧ lo ≤ v ∧ v ≤ hi) ↔
      ∃ line ∈ fileLines src, ∃ lo hi, Ip6Line line lo hi ∧ lo ≤ v ∧ v ≤ hi := by
  have hread : nftElements (routeFile .v6 src) = ip6Elements src := (read_routeFile .v6 h).1
  rw [hread]
  constructor
  · rintro ⟨e, he, lo, hi, hrange, hv⟩
    obtain ⟨line, hline, heq⟩ := List.mem_filterMap.mp he
    cases hrule : ip6Rule line with
    | next => simp [hrule] at heq
    | bad => simp [hrule] at heq
    | emit first last =>
        obtain rfl : first ++ 0x2d :: last = e := by simpa [hrule] using heq
        obtain ⟨-, -, hfirst, hlast, -⟩ := (ip6Rule_eq_emit_iff line first last).mp hrule
        obtain ⟨gs, hgs⟩ := (ip6Ok_iff first).mp hfirst
        obtain ⟨hs, hhs⟩ := (ip6Ok_iff last).mp hlast
        have hends : Ip6Range (first ++ 0x2d :: last) (ip6Value gs) (ip6Value hs) :=
          ⟨first, last, gs, hs, rfl, hgs, hhs, rfl, rfl⟩
        obtain ⟨rfl, rfl⟩ := hrange.unique hends
        exact ⟨line, hline, _, _, ⟨first, last, gs, hs, hrule, hgs, hhs, rfl, rfl⟩, hv⟩
  · rintro ⟨line, hline, lo, hi, ⟨first, last, gs, hs, hrule, hgs, hhs, hlo, hhi⟩, hv⟩
    refine ⟨first ++ 0x2d :: last, List.mem_filterMap.mpr ⟨line, hline, by rw [hrule]⟩, lo, hi,
      ⟨first, last, gs, hs, rfl, hgs, hhs, hlo, hhi⟩, hv⟩

end XtpRs.Scripts
