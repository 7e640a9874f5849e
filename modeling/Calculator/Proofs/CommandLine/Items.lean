import Calculator.CommandLine.Options

/-!
# Items

What the arguments stand for, from left to right: most stand for themselves, `--var` takes one
more argument and `--` all that are left. The first call for help or mistake decides. If there is
none, all that counts is which flags occur, the order of the assignments and that of the words.

More arguments behind those of an accepted request are taken from where that request stands, unless
an argument `--` has made words of all of them.
-/

namespace Calculator

attribute [ext] Options

/-! ## Arguments in turn -/

namespace Options

variable {o o' : Options}

theorem read_append {args : List String} (h : read o args = .ok (.calculate o'))
    (hend : "--" ∉ args) (more : List String) : read o (args ++ more) = read o' more := by
  fun_induction read o args with
  | case1 o =>
    cases h
    rfl
  | case2 o arg args hhelp => exact nomatch h
  | case3 o args hhelp ih =>
    rw [List.cons_append, read.eq_def]
    dsimp only
    rw [if_neg hhelp, if_pos rfl]
    exact ih h fun hmem => hend (List.mem_cons_of_mem _ hmem)
  | case4 o args hhelp hstrict ih =>
    rw [List.cons_append, read.eq_def]
    dsimp only
    rw [if_neg hhelp, if_neg hstrict, if_pos rfl]
    exact ih h fun hmem => hend (List.mem_cons_of_mem _ hmem)
  | case5 o hhelp hstrict htree => exact nomatch h
  | case6 o text args name value hassignment hhelp hstrict htree ih =>
    rw [List.cons_append, List.cons_append, read, if_neg hhelp, if_neg hstrict, if_neg htree,
      if_pos rfl, hassignment]
    exact ih h fun hmem => hend (List.mem_cons_of_mem _ (List.mem_cons_of_mem _ hmem))
  | case7 o text args e hassignment hhelp hstrict htree => exact nomatch h
  | case8 o args => exact absurd List.mem_cons_self hend
  | case9 o arg args hhelp hstrict htree hvar hdash hword ih =>
    rw [List.cons_append, read.eq_def]
    dsimp only
    rw [if_neg hhelp, if_neg hstrict, if_neg htree, if_neg hvar, if_neg hdash, if_pos hword]
    exact ih h fun hmem => hend (List.mem_cons_of_mem _ hmem)
  | case10 o arg args => exact nomatch h

theorem read_end (o : Options) (words : List String) :
    read o ("--" :: words) = .ok (.calculate (o.addWords words)) := by
  rw [read.eq_def]
  simp

/-- A text behind `--` is the expression if there was none. -/
theorem expression?_addWords (h : o.expression? = none) (text : String) :
    (o.addWords [text]).expression? = some text := by
  have hwords : o.words = [] := by
    rw [expression?] at h
    split at h
    · next hempty => exact List.isEmpty_iff.1 hempty
    · exact nomatch h
  rw [addWords, expression?, hwords]
  rfl

end Options

/-! ## Items -/

inductive Item where
  | strict
  | tree
  | help (arg : String)
  | assignment (text : String)
  /-- An argument `--var` with none behind it. -/
  | unfinished
  | unknown (arg : String)
  | word (arg : String)
  /-- The arguments behind `--`. -/
  | verbatim (args : List String)
deriving DecidableEq

namespace Item

/-- What an argument stands for by itself. -/
def alone? (arg : String) : Option Item :=
  if arg = "-h" ∨ arg = "--help" then some (.help arg)
  else if arg = "--strict" then some .strict
  else if arg = "--ast" then some .tree
  else if arg = "--var" ∨ arg = "--" then none
  else if Options.isWord arg then some (.word arg)
  else some (.unknown arg)

def ofArguments : List String → List Item
  | [] => []
  | arg :: args =>
    match alone? arg with
    | some item => item :: ofArguments args
    | none =>
      if arg = "--" then [.verbatim args]
      else match args with
        | [] => [.unfinished]
        | text :: args => .assignment text :: ofArguments args

/-- The arguments that an item is read from. -/
def arguments : Item → List String
  | strict => ["--strict"]
  | tree => ["--ast"]
  | help arg => [arg]
  | assignment text => ["--var", text]
  | unfinished => ["--var"]
  | unknown arg => [arg]
  | word arg => [arg]
  | verbatim args => "--" :: args

/-- The answer of an item that decides by itself. -/
def verdict? : Item → Option (Except UsageError Request)
  | help _ => some (.ok .help)
  | unknown arg => some (.error (.unknownOption arg))
  | unfinished => some (.error .missingAssignment)
  | assignment text =>
    match parseAssignment text with
    | .error e => some (.error e)
    | .ok _ => none
  | _ => none

/-- The name and the value that an item assigns. -/
def binding? : Item → Option (String × Float)
  | assignment text => (parseAssignment text).toOption
  | _ => none

def words : Item → List String
  | word arg => [arg]
  | verbatim args => args
  | _ => []

/-- The options with what an item adds to them. -/
def addTo (o : Options) (item : Item) : Options where
  strict := o.strict || item == .strict
  showTree := o.showTree || item == .tree
  bindings := item.binding?.elim o.bindings fun (name, value) => o.bindings.insert name value
  words := o.words ++ item.words

variable {o : Options} {arg : String} {args : List String} {item : Item} {items : List Item}

/-! ## Reading -/

/-- Only `--var` and `--` take other arguments with them. -/
theorem eq_var_of_alone?_eq_none (h : alone? arg = none) (hdash : arg ≠ "--") : arg = "--var" := by
  rw [alone?] at h
  grind

theorem arguments_of_alone? (h : alone? arg = some item) : item.arguments = [arg] := by
  rw [alone?] at h
  grind [arguments]

/-- No argument is lost. -/
theorem flatMap_ofArguments (args : List String) : (ofArguments args).flatMap arguments = args := by
  fun_induction ofArguments args with
  | case1 => rfl
  | case2 arg args item hitem ih =>
    rw [List.flatMap_cons, arguments_of_alone? hitem, ih]
    rfl
  | case3 args hnone => exact List.append_nil _
  | case4 arg hnone hdash =>
    obtain rfl := eq_var_of_alone?_eq_none hnone hdash
    rfl
  | case5 arg hnone hdash text args ih =>
    obtain rfl := eq_var_of_alone?_eq_none hnone hdash
    rw [List.flatMap_cons, ih]
    rfl

/-! ## Options and one item -/

theorem addTo_strict (o : Options) : addTo o .strict = { o with strict := true } := by
  simp [addTo, binding?, words]

theorem addTo_tree (o : Options) : addTo o .tree = { o with showTree := true } := by
  simp [addTo, binding?, words]

theorem addTo_word (o : Options) (arg : String) : addTo o (.word arg) = o.addWords [arg] := by
  simp [addTo, binding?, words, Options.addWords]

theorem addTo_verbatim (o : Options) (args : List String) :
    addTo o (.verbatim args) = o.addWords args := by
  simp [addTo, binding?, words, Options.addWords]

theorem addTo_assignment (o : Options) {text name : String} {value : Float}
    (h : parseAssignment text = .ok (name, value)) :
    addTo o (.assignment text) = { o with bindings := o.bindings.insert name value } := by
  simp [addTo, binding?, words, h, Except.toOption]

theorem read_of_alone? (h : alone? arg = some item) (o : Options) (args : List String) :
    Options.read o (arg :: args) = item.verdict?.getD (Options.read (item.addTo o) args) := by
  rw [alone?] at h
  rw [Options.read.eq_def]
  dsimp only
  by_cases hhelp : arg = "-h" ∨ arg = "--help"
  · rw [if_pos hhelp] at h ⊢
    cases h
    rfl
  rw [if_neg hhelp] at h ⊢
  by_cases hstrict : arg = "--strict"
  · rw [if_pos hstrict] at h ⊢
    cases h
    rw [addTo_strict]
    rfl
  rw [if_neg hstrict] at h ⊢
  by_cases htree : arg = "--ast"
  · rw [if_pos htree] at h ⊢
    cases h
    rw [addTo_tree]
    rfl
  rw [if_neg htree] at h ⊢
  by_cases htaking : arg = "--var" ∨ arg = "--"
  · rw [if_pos htaking] at h
    cases h
  rw [if_neg htaking] at h
  rw [if_neg (mt .inl htaking), if_neg (mt .inr htaking)]
  by_cases hword : Options.isWord arg = true
  · rw [if_pos hword] at h ⊢
    cases h
    rw [addTo_word]
    rfl
  · rw [if_neg hword] at h ⊢
    cases h
    rfl

theorem read_assignment (o : Options) (text : String) (args : List String) :
    Options.read o ("--var" :: text :: args) =
      (verdict? (.assignment text)).getD (Options.read (addTo o (.assignment text)) args) := by
  rw [Options.read, if_neg (by decide), if_neg (by decide), if_neg (by decide), if_pos rfl,
    verdict?]
  cases h : parseAssignment text with
  | error e => rfl
  | ok binding =>
    rw [addTo_assignment o h]
    rfl

/-! ## Options and all items -/

/-- The first item with a verdict decides. -/
theorem read_eq (o : Options) (args : List String) :
    Options.read o args = ((ofArguments args).findSome? verdict?).getD
      (.ok (.calculate ((ofArguments args).foldl addTo o))) := by
  fun_induction ofArguments args generalizing o with
  | case1 => rfl
  | case2 arg args item hitem ih =>
    rw [read_of_alone? hitem, ih, List.findSome?_cons, List.foldl_cons]
    cases item.verdict? <;> rfl
  | case3 args hnone =>
    rw [Options.read_end, ← addTo_verbatim]
    rfl
  | case4 arg hnone hdash =>
    obtain rfl := eq_var_of_alone?_eq_none hnone hdash
    rfl
  | case5 arg hnone hdash text args ih =>
    obtain rfl := eq_var_of_alone?_eq_none hnone hdash
    rw [read_assignment, ih, List.findSome?_cons, List.foldl_cons]
    cases verdict? (.assignment text) <;> rfl

theorem verdict?_ne_calculate (item : Item) (o : Options) :
    item.verdict? ≠ some (.ok (.calculate o)) := by
  cases item with
  | assignment text =>
    rw [verdict?]
    cases parseAssignment text <;> nofun
  | _ => nofun

/-- A flag that one item sets is set by all items if it is among them. -/
theorem flag_foldl {flag : Options → Bool} {setter : Item}
    (h : ∀ o item, flag (addTo o item) = (flag o || item == setter)) (o : Options)
    (items : List Item) :
    flag (items.foldl addTo o) = true ↔ flag o = true ∨ setter ∈ items := by
  induction items generalizing o with
  | nil => simp
  | cons item items ih =>
    rw [List.foldl_cons, ih, h, Bool.or_eq_true, beq_iff_eq, List.mem_cons, or_assoc,
      @eq_comm _ item]

theorem strict_foldl (o : Options) (items : List Item) :
    (items.foldl addTo o).strict = true ↔ o.strict = true ∨ .strict ∈ items :=
  flag_foldl (fun _ _ => rfl) o items

theorem showTree_foldl (o : Options) (items : List Item) :
    (items.foldl addTo o).showTree = true ↔ o.showTree = true ∨ .tree ∈ items :=
  flag_foldl (fun _ _ => rfl) o items

theorem words_foldl (o : Options) (items : List Item) :
    (items.foldl addTo o).words = o.words ++ items.flatMap words := by
  induction items generalizing o with
  | nil => exact (List.append_nil _).symm
  | cons item items ih => rw [List.foldl_cons, ih, List.flatMap_cons, ← List.append_assoc]; rfl

theorem bindings_foldl (o : Options) (items : List Item) :
    (items.foldl addTo o).bindings =
      (items.filterMap binding?).foldl (fun b (name, value) => b.insert name value) o.bindings := by
  induction items generalizing o with
  | nil => rfl
  | cons item items ih =>
    rw [List.foldl_cons, ih, List.filterMap_cons, addTo]
    cases item.binding? <;> rfl

/-- The last value of a name counts. -/
theorem getElem?_foldl_insert (b : Bindings) (pairs : List (String × Float)) (name : String) :
    (pairs.foldl (fun b (name, value) => b.insert name value) b)[name]? =
      (pairs.reverse.lookup name).or b[name]? := by
  induction pairs generalizing b with
  | nil => rfl
  | cons pair pairs ih =>
    obtain ⟨first, value⟩ := pair
    rw [List.foldl_cons, ih, List.reverse_cons, List.lookup_append, List.lookup_cons,
      Std.ExtTreeMap.getElem?_insert, Option.or_assoc]
    by_cases hname : name = first
    · simp [hname]
    · simp [beq_eq_false_iff_ne.2 hname, Ne.symm hname]

theorem expression?_foldl (items : List Item) :
    (items.foldl addTo {}).expression? =
      if items.flatMap words = [] then none else some (" ".intercalate (items.flatMap words)) := by
  rw [Options.expression?, words_foldl, List.nil_append]
  simp only [List.isEmpty_iff]

theorem foldl_congr (o : Options) {items items' : List Item}
    (hstrict : .strict ∈ items ↔ .strict ∈ items') (htree : .tree ∈ items ↔ .tree ∈ items')
    (hbindings : items.filterMap binding? = items'.filterMap binding?)
    (hwords : items.flatMap words = items'.flatMap words) :
    items.foldl addTo o = items'.foldl addTo o := by
  apply Options.ext
  · rw [Bool.eq_iff_iff, strict_foldl, strict_foldl, hstrict]
  · rw [Bool.eq_iff_iff, showTree_foldl, showTree_foldl, htree]
  · rw [bindings_foldl, bindings_foldl, hbindings]
  · rw [words_foldl, words_foldl, hwords]

/-- Only options that all items agree to are accepted. -/
theorem eq_foldl_of_accepted {o' : Options} (h : Options.read o args = .ok (.calculate o')) :
    o' = (ofArguments args).foldl addTo o := by
  rw [read_eq] at h
  cases hverdict : (ofArguments args).findSome? verdict? with
  | none =>
    rw [hverdict] at h
    cases h
    rfl
  | some verdict =>
    rw [hverdict] at h
    obtain rfl : verdict = .ok (.calculate o') := h
    obtain ⟨item, -, hitem⟩ := List.exists_of_findSome?_eq_some hverdict
    exact absurd hitem (verdict?_ne_calculate item o')

end Item

namespace Request

/-- The arguments are read in items from left to right, and the first call for help or mistake
decides. Without one the flags that occur, the last assignments and the words are taken, wherever
they stand among each other. -/
theorem ofArguments_by_items :
    (∀ args,
      let items := Item.ofArguments args
      items.flatMap Item.arguments = args ∧
        match items.findSome? Item.verdict? with
        | some verdict => ofArguments args = verdict
        | none => ∃ o, ofArguments args = .ok (.calculate o) ∧
            (o.strict = true ↔ .strict ∈ items) ∧
            (o.showTree = true ↔ .tree ∈ items) ∧
            (∀ name, o.bindings[name]? = (items.filterMap Item.binding?).reverse.lookup name) ∧
            o.expression? = if items.flatMap Item.words = [] then none
              else some (" ".intercalate (items.flatMap Item.words))) ∧
    ∀ args args' o o', ofArguments args = .ok (.calculate o) →
      ofArguments args' = .ok (.calculate o') →
      let items := Item.ofArguments args
      let items' := Item.ofArguments args'
      (.strict ∈ items ↔ .strict ∈ items') → (.tree ∈ items ↔ .tree ∈ items') →
      items.filterMap Item.binding? = items'.filterMap Item.binding? →
      items.flatMap Item.words = items'.flatMap Item.words → o = o' := by
  refine ⟨fun args => ⟨Item.flatMap_ofArguments args, ?_⟩, ?_⟩
  · have hread := Item.read_eq {} args
    rw [ofArguments, hread]
    cases (Item.ofArguments args).findSome? Item.verdict? with
    | some verdict => rfl
    | none =>
      refine ⟨_, rfl, ?_, ?_, fun name => ?_, Item.expression?_foldl _⟩
      · simpa using Item.strict_foldl {} (Item.ofArguments args)
      · simpa using Item.showTree_foldl {} (Item.ofArguments args)
      · rw [Item.bindings_foldl, Item.getElem?_foldl_insert]
        simp
  · intro args args' o o' h h' items items' hstrict htree hbindings hwords
    rw [Item.eq_foldl_of_accepted h, Item.eq_foldl_of_accepted h']
    exact Item.foldl_congr {} hstrict htree hbindings hwords

theorem ofArguments_by_items_scattered :
    let first := ["--strict", "x", "--var", "x=2", "--", "-h"]
    let second := ["x", "--var", "x=2", "--strict", "--", "-h"]
    ∃ o, ofArguments first = .ok (.calculate o) ∧ ofArguments second = .ok (.calculate o) ∧
      o.strict = true ∧ o.showTree = false ∧ o.expression? = some "x -h" := by
  intro first second
  have hfirst : (Item.ofArguments first).findSome? Item.verdict? = none := by decide +kernel
  have hsecond : (Item.ofArguments second).findSome? Item.verdict? = none := by decide +kernel
  obtain ⟨-, hread⟩ := ofArguments_by_items.1 first
  obtain ⟨-, hread'⟩ := ofArguments_by_items.1 second
  rw [hfirst] at hread
  rw [hsecond] at hread'
  obtain ⟨o, ho, hstrict, htree, -, hexpression⟩ := hread
  obtain ⟨o', ho', -⟩ := hread'
  have hsame : o = o' := ofArguments_by_items.2 first second o o' ho ho' (by decide +kernel)
    (by decide +kernel) rfl (by decide +kernel)
  have hflag : o.showTree = false := Bool.eq_false_iff.2 (mt htree.1 (by decide +kernel))
  exact ⟨o, ho, hsame ▸ ho', hstrict.2 (by decide +kernel), hflag,
    hexpression.trans (by decide +kernel)⟩

end Request

end Calculator
