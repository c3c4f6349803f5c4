import CommandShell.Proofs.CommandNames
import CommandShell.Proofs.Text.Order
import Mathlib.Data.List.Induction

/-!
# What is proposed for a line

A word is completed if nothing but blanks stands before it. The candidates are the known names that
start with the word; what is inserted is the one there is, or the longest start that all of them
share.

## Main definitions

* `Completion.Typed`: the word before the cursor and what stands before it.
* `Completion.IsSharedStart`: the longest start that some names share.
* `Completion.Offers`: a proposal for a word, given the names that are known.

## Main statements

* `Completion.commandNames_cases`: the known names are listed, unless a directory's name holds a
  null character.
* `Completion.isSharedStart_sharedStart`: the first and the last of some names in order tell what
  all of them share.
* `Completion.offers_choose`: the choice among the candidates in order is the right one.
* `Completion.propose_exact`: what is proposed for every line.
-/

namespace CommandShell.Completion

/-! ## The word before the cursor -/

/-- A line ends in a word, and what stands before the word ends in the last space of the line, if it
has one. -/
structure Typed (line lead word : List Char) : Prop where
  line_eq : line = lead ++ word
  lead_eq : lead = [] ∨ ∃ head, lead = head ++ [' ']
  space : ' ' ∉ word

theorem exists_typed (line : List Char) : ∃ lead word, Typed line lead word := by
  induction line using List.reverseRecOn with
  | nil => exact ⟨[], [], rfl, .inl rfl, by simp⟩
  | append_singleton line c ih =>
    by_cases hc : c = ' '
    · subst hc
      exact ⟨line ++ [' '], [], by simp, .inr ⟨line, rfl⟩, by simp⟩
    · obtain ⟨lead, word, rfl, hlead, hword⟩ := ih
      exact ⟨lead, word ++ [c], by simp, hlead, by simp [hword, Ne.symm hc]⟩

theorem Typed.splitLast {line lead word : List Char} (h : Typed line lead word) :
    Completion.splitLast line = (lead.dropLast, word) := by
  obtain ⟨rfl, hlead, hspace⟩ := h
  have hword : ∀ c ∈ word.reverse, (c != ' ') = true := by
    intro c hc
    simp only [bne_iff_ne]
    rintro rfl
    exact hspace (List.mem_reverse.mp hc)
  have htail : (lead ++ word).reverse.takeWhile (· != ' ') = word.reverse ∧
      (lead ++ word).reverse.dropWhile (· != ' ') = lead.reverse := by
    rw [List.reverse_append, List.takeWhile_append_of_pos hword, List.dropWhile_append_of_pos hword]
    rcases hlead with rfl | ⟨head, rfl⟩ <;> simp
  rw [Completion.splitLast, htail.1, htail.2]
  simp

theorem Typed.all_isBlank_dropLast {line lead word : List Char} (h : Typed line lead word) :
    lead.dropLast.all Text.isBlank = lead.all Text.isBlank := by
  rcases h.lead_eq with rfl | ⟨head, rfl⟩ <;> simp

/-! ## The names that are known -/

section Names

variable {w : World} {builtins directories : List String}

theorem exists_executablesIn {d : String} (h : Path.hasNull d = false) :
    ∃ names, Lookup.executablesIn w d = .ok names := by
  unfold Lookup.executablesIn World.namesIn
  rw [if_neg (by simp [h])]
  split <;> grind

theorem executablesIn_of_hasNull {d : String} (h : Path.hasNull d = true) :
    Lookup.executablesIn w d = .error .embeddedNull := by
  simp [Lookup.executablesIn, World.namesIn, h]

theorem commandNames_cons (d : String) : commandNames w builtins (d :: directories) =
    (Lookup.executablesIn w d >>= fun found => commandNames w (builtins ++ found) directories) := by
  have herror (f : Fault) (directories : List String) : directories.foldl (fun names d => do
      let names ← names
      return names ++ (← Lookup.executablesIn w d)) (.error f : Except Fault (List String)) =
        .error f := by
    induction directories with
    | nil => rfl
    | cons d rest ih => exact ih
  rw [commandNames, List.foldl_cons]
  rcases Lookup.executablesIn w d with f | found
  · exact herror f directories
  · rfl

/-- The names that are known: those of the builtins, and those that the directories list. -/
def Known (w : World) (builtins directories : List String) (name : String) : Prop :=
  name ∈ builtins ∨ ∃ d ∈ directories, Lookup.Lists w d name

/-- The known names are listed, unless the name of some directory cannot be that of any. -/
theorem commandNames_cases (w : World) (builtins directories : List String) :
    ((∃ d ∈ directories, Path.hasNull d = true) →
      commandNames w builtins directories = .error .embeddedNull) ∧
      ((∀ d ∈ directories, Path.hasNull d = false) → ∃ names,
        commandNames w builtins directories = .ok names ∧
        ∀ name, name ∈ names ↔ Known w builtins directories name) := by
  refine ⟨?_, fun h => commandNames_eq builtins fun d hd => exists_executablesIn (h d hd)⟩
  induction directories generalizing builtins with
  | nil => simp
  | cons d rest ih =>
    intro h
    rw [commandNames_cons]
    cases hnull : Path.hasNull d with
    | true =>
      rw [executablesIn_of_hasNull hnull]
      rfl
    | false =>
      obtain ⟨found, hfound⟩ := exists_executablesIn (w := w) hnull
      rw [hfound]
      exact ih _ (by simpa [hnull] using h)

end Names

/-! ## What some names share -/

/-- The longest start that all of some names share. -/
structure IsSharedStart (names : List String) (start : List Char) : Prop where
  isPrefix : ∀ name ∈ names, start <+: name.toList
  longest : ∀ other : List Char, (∀ name ∈ names, other <+: name.toList) → other <+: start

theorem IsSharedStart.unique {names : List String} {start start' : List Char}
    (h : IsSharedStart names start) (h' : IsSharedStart names start') : start = start' :=
  (h'.longest start h.isPrefix).eq_of_length_le (h.longest start' h'.isPrefix).length_le

theorem prefix_shared_iff {start as bs : List Char} : start <+: shared as bs ↔ start <+: as ∧
    start <+: bs := by
  induction as generalizing start bs with
  | nil => cases bs <;> simp +contextual [shared]
  | cons a as ih =>
    cases bs with
    | nil => simp +contextual [shared]
    | cons b bs =>
      cases start with
      | nil => simp
      | cons c start =>
        rw [shared]
        split
        · next hab =>
          rw [hab, List.cons_prefix_cons, List.cons_prefix_cons, List.cons_prefix_cons, ih]
          tauto
        · next hab =>
          simp only [List.prefix_nil, List.cons_prefix_cons, reduceCtorEq, false_iff]
          rintro ⟨⟨rfl, -⟩, rfl, -⟩
          exact hab rfl

/-- In an ordered list the first and the last name tell what all of them share. -/
theorem isSharedStart_sharedStart {names : List String} (h : names.Pairwise (· < ·))
    (hne : names ≠ []) : IsSharedStart names (sharedStart names).toList := by
  have hstart : (sharedStart names).toList =
      shared (names.head hne).toList (names.getLast hne).toList := by
    rw [sharedStart, List.head?_eq_some_head hne, List.getLast?_eq_some_getLast hne]
    simp
  have hfirst (name : String) (hname : name ∈ names) : names.head hne ≤ name := by
    obtain ⟨first, rest, rfl⟩ := List.exists_cons_of_ne_nil hne
    rcases List.mem_cons.mp hname with rfl | hname
    · exact le_rfl
    · exact le_of_lt (List.rel_of_pairwise_cons h hname)
  have hlast (name : String) (hname : name ∈ names) : name ≤ names.getLast hne := by
    rw [← List.dropLast_append_getLast hne] at h hname
    rcases List.mem_append.mp hname with hname | hname
    · exact le_of_lt ((List.pairwise_append.mp h).2.2 name hname _ (by simp))
    · exact le_of_eq (List.mem_singleton.mp hname)
  rw [hstart]
  constructor
  · intro name hname
    obtain ⟨hstart, hstart'⟩ := prefix_shared_iff.mp (List.prefix_refl (shared _ _))
    exact Text.isPrefix_of_le_of_le hstart hstart' (String.le_iff_toList_le.mp (hfirst name hname))
      (String.le_iff_toList_le.mp (hlast name hname))
  · intro other hother
    exact prefix_shared_iff.mpr ⟨hother _ (List.head_mem hne), hother _ (List.getLast_mem hne)⟩

/-! ## What is proposed -/

/-- A proposal for a word: the candidates are the known names that start with the word, and the kind
and what is inserted go by how many they are and by what they share. -/
structure Offers (known : String → Prop) (word : String) (p : Proposal) : Prop where
  word_eq : p.word = word
  mem_candidates : ∀ name, name ∈ p.candidates ↔ known name ∧ word.toList <+: name.toList
  increasing : p.candidates.Pairwise (· < ·)
  noMatch : p.kind = .noMatch ↔ p.candidates = []
  complete : p.kind = .complete ↔ ∃ name, p.candidates = [name]
  extend : p.kind = .extend ↔ 2 ≤ p.candidates.length ∧
    ∃ start, IsSharedStart p.candidates start ∧ word.toList.length < start.length
  list : p.kind = .list ↔ 2 ≤ p.candidates.length ∧
    ∃ start, IsSharedStart p.candidates start ∧ start.length ≤ word.toList.length
  insertion_complete : ∀ name, p.candidates = [name] → p.insertion = name ++ " "
  insertion_extend : p.kind = .extend → IsSharedStart p.candidates p.insertion.toList
  insertion_none : p.kind = .noMatch ∨ p.kind = .list → p.insertion = ""

section Choice

variable {known : String → Prop} {word : String} {hits : List String}

theorem choose_several (h : 2 ≤ hits.length) : choose word hits =
    if word.toList.length < (sharedStart hits).toList.length then
      { kind := .extend, word, insertion := sharedStart hits, candidates := hits }
    else { kind := .list, word, candidates := hits } := by
  match hits, h with
  | _ :: _ :: _, _ => rfl

/-- The choice among the names that start with the word, in order, is right. -/
theorem offers_choose (hmem : ∀ name, name ∈ hits ↔ known name ∧ word.toList <+: name.toList)
    (hhits : hits.Pairwise (· < ·)) : Offers known word (choose word hits) := by
  obtain rfl | ⟨name, rfl⟩ | hseveral : hits = [] ∨ (∃ name, hits = [name]) ∨ 2 ≤ hits.length := by
    rcases hits with _ | ⟨name, _ | ⟨name', rest⟩⟩ <;> simp
  · constructor <;> simp [choose, hmem]
  · constructor <;> simp [choose, hmem]
  · have hnone : hits ≠ [] := by grind
    have hone (name : String) : hits ≠ [name] := by grind
    have hshared : IsSharedStart hits (sharedStart hits).toList :=
      isSharedStart_sharedStart hhits hnone
    have hlonger : (∃ start, IsSharedStart hits start ∧ word.toList.length < start.length) ↔
        word.toList.length < (sharedStart hits).toList.length :=
      ⟨fun ⟨_, hstart, hlong⟩ => hstart.unique hshared ▸ hlong, fun hlong => ⟨_, hshared, hlong⟩⟩
    have hshorter : (∃ start, IsSharedStart hits start ∧ start.length ≤ word.toList.length) ↔
        (sharedStart hits).toList.length ≤ word.toList.length :=
      ⟨fun ⟨_, hstart, hshort⟩ => hstart.unique hshared ▸ hshort, fun hshort =>
        ⟨_, hshared, hshort⟩⟩
    rw [choose_several hseveral]
    split
    · next hlong => exact {
        word_eq := rfl
        mem_candidates := hmem
        increasing := hhits
        noMatch := by simp [hnone]
        complete := by simp [hone]
        extend := by simp [hseveral, hlonger, hlong]
        list := by simp [hseveral, hshorter, hlong]
        insertion_complete := fun name hname => absurd hname (hone name)
        insertion_extend := fun _ => hshared
        insertion_none := by simp }
    · next hshort => exact {
        word_eq := rfl
        mem_candidates := hmem
        increasing := hhits
        noMatch := by simp [hnone]
        complete := by simp [hone]
        extend := by simp [hseveral, hlonger, hshort]
        list := by simp [hseveral, hshorter, Nat.le_of_not_lt hshort]
        insertion_complete := fun name hname => absurd hname (hone name)
        insertion_extend := by simp
        insertion_none := fun _ => rfl }

theorem candidates_choose : (choose word hits).candidates = hits := by
  match hits with
  | [] | [_] => rfl
  | _ :: _ :: _ =>
    rw [choose_several (by simp)]
    split <;> rfl

theorem kind_choose : (choose word hits).kind ≠ .suppressed := by
  match hits with
  | [] | [_] => simp [choose]
  | _ :: _ :: _ =>
    rw [choose_several (by simp)]
    split <;> simp

/-- Nothing more is to be inserted after the start that the candidates share. -/
theorem choose_of_isSharedStart (hhits : hits.Pairwise (· < ·)) (hseveral : 2 ≤ hits.length)
    (hstart : IsSharedStart hits word.toList) :
    choose word hits = { kind := .list, word, candidates := hits } := by
  have hshared : IsSharedStart hits (sharedStart hits).toList :=
    isSharedStart_sharedStart hhits (by grind)
  rw [choose_several hseveral, hshared.unique hstart, if_neg (Nat.lt_irrefl _)]

end Choice

/-! ## A line -/

/-- The names that start with a word, in order. -/
def hits (names : List String) (word : List Char) : List String :=
  Text.inOrder (names.filter fun name => word.isPrefixOf name.toList)

theorem mem_hits {names : List String} {word : List Char} {name : String} :
    name ∈ hits names word ↔ name ∈ names ∧ word <+: name.toList := by
  simp [hits, Text.mem_inOrder]

theorem pairwise_hits (names : List String) (word : List Char) :
    (hits names word).Pairwise (· < ·) :=
  Text.pairwise_inOrder _

/-- The start that the candidates for a word share has the same candidates. -/
theorem hits_of_isSharedStart {names : List String} {word start : List Char}
    (h : IsSharedStart (hits names word) start) : hits names start = hits names word := by
  have hfilter : (names.filter fun name => start.isPrefixOf name.toList) =
      names.filter fun name => word.isPrefixOf name.toList := by
    refine List.filter_congr fun name hname => Bool.eq_iff_iff.mpr ?_
    rw [List.isPrefixOf_iff_prefix, List.isPrefixOf_iff_prefix]
    constructor
    · exact (h.longest word fun name hname => (mem_hits.mp hname).2).trans
    · exact fun hword => h.isPrefix name (mem_hits.mpr ⟨hname, hword⟩)
  rw [hits, hfilter, hits]

section Lines

variable {w : World} {builtins directories : List String} {lead word : List Char}

/-- What is proposed for a line with nothing but blanks before the word at the cursor. -/
theorem propose_of_blank (hline : Typed (lead ++ word) lead word)
    (hblank : ∀ c ∈ lead, Text.isBlank c = true) :
    propose w builtins directories (String.ofList (lead ++ word)) =
      (commandNames w builtins directories).map fun names =>
        choose (String.ofList word) (hits names word) := by
  have hall : lead.dropLast.all Text.isBlank = true := by
    rw [hline.all_isBlank_dropLast]
    simpa using hblank
  rw [propose, String.toList_ofList, hline.splitLast]
  simp [hall, hits]

/-- What is proposed for a line with another word before the one at the cursor. -/
theorem propose_of_not_blank (hline : Typed (lead ++ word) lead word)
    (hblank : ∃ c ∈ lead, Text.isBlank c = false) :
    propose w builtins directories (String.ofList (lead ++ word)) =
      .ok { kind := .suppressed, word := String.ofList word } := by
  have hall : lead.dropLast.all Text.isBlank = false := by
    rw [hline.all_isBlank_dropLast]
    simpa using hblank
  rw [propose, String.toList_ofList, hline.splitLast]
  simp [hall]

theorem offers_hits {names : List String}
    (hknown : ∀ name, name ∈ names ↔ Known w builtins directories name) :
    Offers (Known w builtins directories) (String.ofList word)
      (choose (String.ofList word) (hits names word)) :=
  offers_choose (fun name => by rw [mem_hits, hknown, String.toList_ofList])
    (pairwise_hits names word)

/-- A line for which something is proposed has nothing but blanks before the word at the cursor, and
the choice among the known names is right. -/
theorem offers_of_propose {line : String} {p : Proposal}
    (hp : propose w builtins directories line = .ok p) (hkind : p.kind ≠ .suppressed) :
      ∃ lead word, Typed line.toList lead word ∧
      (∀ c ∈ lead, Text.isBlank c = true) ∧
        Offers (Known w builtins directories) (String.ofList word) p := by
  obtain ⟨lead, word, hline⟩ := exists_typed line.toList
  obtain rfl : line = String.ofList (lead ++ word) := by rw [← hline.line_eq, String.ofList_toList]
  rw [String.toList_ofList] at hline
  have hblank : ∀ c ∈ lead, Text.isBlank c = true := by
    by_contra hblank
    rw [propose_of_not_blank hline (by simpa using hblank)] at hp
    cases hp
    exact hkind rfl
  obtain ⟨hfails, hlists⟩ := commandNames_cases w builtins directories
  rw [propose_of_blank hline hblank] at hp
  have hnull : ∀ d ∈ directories, Path.hasNull d = false := by
    by_contra hnull
    rw [hfails (by simpa using hnull)] at hp
    cases hp
  obtain ⟨names, hnames, hknown⟩ := hlists hnull
  rw [hnames] at hp
  cases hp
  exact ⟨lead, word, by rwa [String.toList_ofList], hblank, offers_hits hknown⟩

end Lines

/-- A world with a program in each of two directories, and a file that is none. -/
def furnished : World where
  files := { nodes := [
    (["a"], .dir), (["a", "config"], .file ByteArray.empty true),
    (["a", "conf"], .file ByteArray.empty false),
    (["b"], .dir), (["b", "configure"], .file ByteArray.empty true)] }

theorem stat_furnished : ∀ n ∈ furnished.files.nodes,
    furnished.files.stat furnished.directory (Path.ofParts n.1) = .ok n := by
  have hname (name : String) (h : name ∈ ["a", "b", "config", "conf", "configure"]) :
      ¬ FileSystem.maxName < (Utf8.encode name).length := by
    revert name
    decide
  intro n hn
  simp only [furnished, List.mem_cons, List.not_mem_nil, or_false] at hn
  rcases hn with rfl | rfl | rfl | rfl | rfl
  all_goals
    rw [FileSystem.stat_eq_iff, FileSystem.locate, if_neg (by decide)]
    simp [furnished, Path.ofParts, Path.isAbsolute, FileSystem.walk, FileSystem.get?, hname]

theorem isExecutable_furnished : ∀ n ∈ furnished.files.nodes,
    furnished.isExecutable (Path.ofParts n.1) = FileSystem.isExecutableNode n.2 := by
  have hnull : ∀ n ∈ furnished.files.nodes, Path.hasNull (Path.ofParts n.1).text = false := by
    simp only [furnished, List.forall_mem_cons]
    decide
  intro n hn
  simp [World.isExecutable, World.test, FileSystem.test, hnull n hn, stat_furnished n hn]

theorem executablesIn_furnished :
    Lookup.executablesIn furnished "/a" = .ok ["config"] ∧
      Lookup.executablesIn furnished "/b" = .ok ["configure"] := by
  have hscans (d : String) (hd : d ∈ ["/a", "/b"]) : furnished.Scans d := by
    have hfit : ∀ d ∈ ["/a", "/b"],
        d ≠ "" ∧ Path.hasNull d = false ∧ Path.size d ≤ FileSystem.maxPath := by decide
    obtain ⟨hne, hnull, hsize⟩ := hfit d hd
    exact World.scans_of_size rfl hne hnull hsize
  have hstat (name : String) (hn : ([name], .dir) ∈ furnished.files.nodes)
      (hpath : Path.ofText ("/" ++ name) = Path.ofParts [name]) :
      furnished.files.stat furnished.directory (Path.ofText ("/" ++ name)) =
        .ok ([name], .dir) := by
    rw [hpath]
    exact stat_furnished ([name], .dir) hn
  have hexecutable (text : String) (n : Place × Node) (hn : n ∈ furnished.files.nodes)
      (hpath : Path.ofText text = Path.ofParts n.1) :
      furnished.isExecutable (Path.ofText text) = FileSystem.isExecutableNode n.2 := by
    rw [hpath]
    exact isExecutable_furnished n hn
  have ha := hstat "a" (by simp [furnished]) (by decide)
  have hb := hstat "b" (by simp [furnished]) (by decide)
  have hconfig :=
    hexecutable (Path.inDirectory "/a" "config") (["a", "config"], .file ByteArray.empty true)
    (by simp [furnished]) (by decide)
  have hconf :=
    hexecutable (Path.inDirectory "/a" "conf") (["a", "conf"], .file ByteArray.empty false)
    (by simp [furnished]) (by decide)
  have hconfigure := hexecutable (Path.inDirectory "/b" "configure")
    (["b", "configure"], .file ByteArray.empty true) (by simp [furnished]) (by decide)
  have hnames : furnished.files.names ["a"] = ["config", "conf"] := by decide
  have hnames' : furnished.files.names ["b"] = ["configure"] := by decide
  constructor
  · rw [Lookup.executablesIn, (hscans "/a" (by simp)).lists _ ha, hnames]
    simp [hconfig, hconf, FileSystem.isExecutableNode]
  · rw [Lookup.executablesIn, (hscans "/b" (by simp)).lists _ hb, hnames']
    simp [hconfigure, FileSystem.isExecutableNode]

theorem lists_furnished (name : String) :
    (Lookup.Lists furnished "/a" name ↔ name = "config") ∧
      (Lookup.Lists furnished "/b" name ↔ name = "configure") := by
  obtain ⟨ha, hb⟩ := executablesIn_furnished
  simp [Lookup.Lists, ha, hb]

/-- What is proposed for a line: nothing after a first word, and else the right choice among the
builtins and the names that the directories list. After an extension all candidates are listed, if
none of them holds a space. -/
theorem propose_exact (w : World) (builtins directories : List String) (line : String) :
    ∃ lead word, Typed line.toList lead word ∧
      (propose w builtins directories line =
          .ok { kind := .suppressed, word := String.ofList word } ↔
        ∃ c ∈ lead, Text.isBlank c = false) ∧
      ((∀ c ∈ lead, Text.isBlank c = true) →
        ((∃ d ∈ directories, Path.hasNull d = true) →
          propose w builtins directories line = .error .embeddedNull) ∧
        ((∀ d ∈ directories, Path.hasNull d = false) →
          ∃ p, propose w builtins directories line = .ok p ∧
            Offers (Known w builtins directories) (String.ofList word) p ∧
            (p.kind = .extend → (∀ name ∈ p.candidates, ' ' ∉ name.toList) →
              propose w builtins directories (String.ofList (lead ++ p.insertion.toList)) =
                .ok { kind := .list, word := p.insertion, candidates := p.candidates }))) := by
  obtain ⟨lead, word, hline⟩ := exists_typed line.toList
  obtain rfl : line = String.ofList (lead ++ word) := by rw [← hline.line_eq, String.ofList_toList]
  rw [String.toList_ofList] at hline
  obtain ⟨hfails, hlists⟩ := commandNames_cases w builtins directories
  refine ⟨lead, word, by rwa [String.toList_ofList], ?_, fun hblank => ?_⟩
  · refine ⟨fun hsuppressed => ?_, propose_of_not_blank hline⟩
    by_contra hblank
    rw [propose_of_blank hline (by simpa using hblank)] at hsuppressed
    cases hnames : commandNames w builtins directories with
    | error f =>
      rw [hnames] at hsuppressed
      cases hsuppressed
    | ok names =>
      rw [hnames] at hsuppressed
      exact kind_choose (congrArg Proposal.kind (Except.ok.inj hsuppressed))
  rw [propose_of_blank hline hblank]
  refine ⟨fun h => by rw [hfails h]; rfl, fun h => ?_⟩
  obtain ⟨names, hnames, hknown⟩ := hlists h
  have hoffers : Offers (Known w builtins directories) (String.ofList word) _ := offers_hits hknown
  refine ⟨_, by rw [hnames]; rfl, hoffers, fun hextend hspace => ?_⟩
  have hshared := hoffers.insertion_extend hextend
  have hseveral := (hoffers.extend.mp hextend).1
  rw [candidates_choose] at hshared hseveral hspace ⊢
  generalize (choose _ _).insertion = start at hshared ⊢
  -- the start that is inserted is a word again, and has the same candidates
  have hline' : Typed (lead ++ start.toList) lead start.toList := by
    refine ⟨rfl, hline.lead_eq, fun hmem => ?_⟩
    obtain ⟨name, hname⟩ := List.exists_mem_of_length_pos (Nat.lt_of_lt_of_le Nat.two_pos hseveral)
    exact hspace name hname ((hshared.isPrefix name hname).subset hmem)
  rw [propose_of_blank hline' hblank, hnames, Except.map, hits_of_isSharedStart hshared,
    String.ofList_toList, choose_of_isSharedStart (pairwise_hits names word) hseveral hshared]

/-- Two programs in two directories share more than the word; after the extension both are
listed. -/
theorem propose_exact_config :
    let directories := ["/a", "/b"]
    ∃ p, propose furnished ["cd"] directories " con" = .ok p ∧ p.kind = .extend ∧
      p.insertion = "config" ∧ propose furnished ["cd"] directories " config" =
        .ok { kind := .list, word := "config", candidates := p.candidates } := by
  intro directories
  obtain ⟨lead, word, hline, -, hblank⟩ := propose_exact furnished ["cd"] directories " con"
  obtain rfl : word = ['c', 'o', 'n'] := (congrArg Prod.snd hline.splitLast).symm.trans (by decide)
  obtain rfl : lead = [' '] := (List.append_cancel_right hline.line_eq).symm
  obtain ⟨p, hp, hoffers, hlisted⟩ := (hblank (by simp)).2 (by decide)
  have hmem (name : String) : name ∈ p.candidates ↔ name = "config" ∨ name = "configure" := by
    obtain ⟨ha, hb⟩ := lists_furnished name
    rw [hoffers.mem_candidates]
    simp only [Known, directories, List.mem_cons, List.not_mem_nil, or_false, exists_eq_or_imp,
      exists_eq_left, ha, hb]
    constructor
    · rintro ⟨rfl | hname, hstart⟩
      · revert hstart
        decide
      · exact hname
    · rintro (rfl | rfl) <;> decide
  have hshared : IsSharedStart p.candidates "config".toList := by
    refine ⟨fun name hname => ?_, fun other hother => hother _ ((hmem _).mpr (.inl rfl))⟩
    rcases (hmem name).mp hname with rfl | rfl <;> decide
  have hseveral : 2 ≤ p.candidates.length := by
    have hconfig := (hmem "config").mpr (.inl rfl)
    have hconfigure := (hmem "configure").mpr (.inr rfl)
    generalize p.candidates = names at hconfig hconfigure ⊢
    rcases names with _ | ⟨name, _ | ⟨name', rest⟩⟩
    · cases hconfig
    · rw [List.mem_singleton] at hconfig hconfigure
      exact absurd (hconfig.trans hconfigure.symm) (by decide)
    · simp
  have hextend : p.kind = .extend := hoffers.extend.mpr ⟨hseveral, _, hshared, by decide⟩
  have hinsertion : p.insertion = "config" :=
    String.toList_inj.mp ((hoffers.insertion_extend hextend).unique hshared)
  have hagain :=
    hlisted hextend fun name hname => by rcases (hmem name).mp hname with rfl | rfl <;> decide
  rw [hinsertion, show String.ofList ([' '] ++ "config".toList) = " config" by decide] at hagain
  exact ⟨p, hp, hextend, hinsertion, hagain⟩

end CommandShell.Completion
