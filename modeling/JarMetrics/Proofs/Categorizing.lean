import JarMetrics.Category
import JarMetrics.Proofs.WithinLimits

/-!
# The category of a failure

A failure is a chain of causes, and users are told one category for it. `Categorized` says which: an
interrupt anywhere in the chain decides, then the outermost code if it is a known one, and only then
the words of the message. `category_exact` states that this is the category that a failure is given,
whatever its causes. So as long as the message does not decide, notes, entries and categories around
a failure leave its category alone, and a request whose analysis was interrupted is told as timed
out, although the failure of the analysis has a code of its own.

`Reaches` and `Outermost` follow the causes one by one. A flattened failure has no cause to ask for,
so neither of them looks behind it.
-/

namespace JarMetrics

namespace Failure

/-! ## Causes -/

/-- The cause of a failure, if it can be asked for. -/
def cause? : Failure → Option Failure
  | .noted _ cause => some cause
  | .codedBy _ _ cause => some cause
  | .categorizedBy _ _ cause => some cause
  | .atEntry _ cause => some cause
  | _ => none

/-- A failure is another one, or comes of it. -/
inductive Reaches : Failure → Failure → Prop
  | self (f : Failure) : Reaches f f
  | through {f cause g : Failure} (asked : f.cause? = some cause)
      (reached : Reaches cause g) : Reaches f g

/-- The outermost code of a failure. -/
inductive Outermost : Failure → FailureCode → Prop
  | here {f : Failure} {code : FailureCode} (own : f.linkCode? = some code) : Outermost f code
  | through {f cause : Failure} {code : FailureCode} (plain : f.linkCode? = none)
      (asked : f.cause? = some cause)
      (inner : Outermost cause code) : Outermost f code

theorem chain_eq (f : Failure) : f.chain = f :: (f.cause?.map chain).getD [] := by
  cases f <;> rfl

/-- What can be proved of a failure from what holds of its cause. -/
theorem cause_induction {motive : Failure → Prop} (last : ∀ f, f.cause? = none → motive f)
    (below : ∀ f cause, f.cause? = some cause → motive cause → motive f) (f : Failure) :
    motive f := by
  induction f with
  | noted note cause ih => exact below _ cause rfl ih
  | codedBy code text cause ih => exact below _ cause rfl ih
  | categorizedBy category text cause ih => exact below _ cause rfl ih
  | atEntry entry cause ih => exact below _ cause rfl ih
  | _ => exact last _ rfl

theorem mem_chain_iff {f g : Failure} : g ∈ f.chain ↔ f.Reaches g := by
  constructor
  · intro member
    induction f using cause_induction with
    | last f noneBelow =>
      rw [chain_eq, noneBelow] at member
      obtain rfl : g = f := by simpa using member
      exact .self g
    | below f cause asked ih =>
      rw [chain_eq, asked] at member
      rcases List.mem_cons.mp member with rfl | inside
      · exact .self g
      · exact .through asked (ih inside)
  · intro reached
    induction reached with
    | self f =>
      rw [chain_eq]
      exact List.mem_cons_self
    | @through f cause g asked _ ih =>
      rw [chain_eq, asked]
      exact List.mem_cons_of_mem f ih

theorem interrupt?_isSome_iff {f : Failure} :
    f.interrupt?.isSome = true ↔ ∃ i, f.Reaches (.interrupted i) := by
  unfold interrupt?
  rw [List.findSome?_isSome_iff]
  constructor
  · rintro ⟨g, member, found⟩
    cases g with
    | interrupted i => exact ⟨i, mem_chain_iff.mp member⟩
    | _ => cases found
  · rintro ⟨i, reached⟩
    exact ⟨_, mem_chain_iff.mpr reached, rfl⟩

theorem code?_eq_some_iff {f : Failure} {code : FailureCode} :
    f.code? = some code ↔ f.Outermost code := by
  induction f using cause_induction with
  | last f noneBelow =>
    have alone : f.code? = f.linkCode? := by
      rw [code?, chain_eq, noneBelow]
      cases own : f.linkCode? <;> simp [own]
    rw [alone]
    constructor
    · intro own
      exact .here own
    · intro outermost
      cases outermost with
      | here own => exact own
      | through _ asked => simp [noneBelow] at asked
  | below f cause asked ih =>
    have either : f.code? = f.linkCode?.or cause.code? := by
      rw [code?, chain_eq, asked]
      cases own : f.linkCode? <;> simp [own, code?]
    rw [either]
    cases own : f.linkCode? with
    | some other =>
      simp only [Option.some_or, Option.some.injEq]
      constructor
      · rintro rfl
        exact .here own
      · intro outermost
        cases outermost with
        | here same => simpa [own] using same
        | through plain => simp [own] at plain
    | none =>
      rw [Option.none_or, ih]
      constructor
      · intro inner
        exact .through own asked inner
      · intro outermost
        cases outermost with
        | here same => simp [own] at same
        | through _ same inner =>
          rw [asked, Option.some.injEq] at same
          exact same ▸ inner

end Failure

/-! ## Words -/

namespace Category

theorem occursIn_iff {word text : List Char} : occursIn word text = true ↔ word <:+: text := by
  induction text with
  | nil => simp [occursIn]
  | cons c text ih =>
    rw [occursIn, Bool.or_eq_true, ih, List.isPrefixOf_iff_prefix, List.infix_cons_iff]

/-- The first category of a table one of whose words stands in a text, or the unknown one. -/
inductive FirstNamed (text : List Char) : List (Category × List String) → Category → Prop
  | nowhere : FirstNamed text [] .unknown
  | here {words : List String} {word : String} (category : Category)
      (rest : List (Category × List String))
      (listed : word ∈ words) (occurs : word.toList <:+: text) :
      FirstNamed text ((category, words) :: rest) category
  | later {words : List String} {rest : List (Category × List String)}
      {category : Category} (other : Category)
      (absent : ∀ word ∈ words, ¬ word.toList <:+: text) (named : FirstNamed text rest category) :
      FirstNamed text ((other, words) :: rest) category

theorem firstNamed_iff {text : List Char} {table : List (Category × List String)}
    {category : Category} :
    FirstNamed text table category ↔
      ((table.find? fun p => p.2.any fun word => occursIn word.toList text).map Prod.fst).getD
        .unknown = category := by
  induction table with
  | nil =>
    constructor
    · intro named
      cases named
      rfl
    · rintro rfl
      exact .nowhere
  | cons entry rest ih =>
    obtain ⟨own, words⟩ := entry
    by_cases stands : ∃ word ∈ words, word.toList <:+: text
    · obtain ⟨word, listed, occurs⟩ := stands
      have found : (words.any fun word => occursIn word.toList text) = true :=
        List.any_eq_true.mpr ⟨word, listed, occursIn_iff.mpr occurs⟩
      rw [List.find?_cons_of_pos (by exact found)]
      constructor
      · intro named
        cases named with
        | here => rfl
        | later _ absent => exact absurd occurs (absent word listed)
      · rintro rfl
        exact .here own rest listed occurs
    · have absent : ∀ word ∈ words, ¬ word.toList <:+: text := by
        intro word listed occurs
        exact stands ⟨word, listed, occurs⟩
      have passed : ¬ (words.any fun word => occursIn word.toList text) = true := by
        rw [List.any_eq_true]
        rintro ⟨word, listed, occurs⟩
        exact absent word listed (occursIn_iff.mp occurs)
      rw [List.find?_cons_of_neg (by exact passed), ← ih]
      constructor
      · intro named
        cases named with
        | here _ _ listed occurs => exact absurd occurs (absent _ listed)
        | later _ _ named => exact named
      · intro named
        exact .later own absent named

/-! ## Categories -/

/-- What the known codes stand for. -/
def codeTable : List (String × Category) :=
  [("INVALID_INPUT", .input), ("FILE_NOT_FOUND", .input), ("CONFIG_ERROR", .config),
    ("OUTPUT_ERROR", .output), ("UNSUPPORTED_FORMAT", .output), ("ARCHIVE_ERROR", .processing),
    ("ANALYSIS_ERROR", .processing), ("EXPORT_ERROR", .processing)]

theorem ofCode?_eq_some_iff {code : FailureCode} {category : Category} :
    ofCode? code = some category ↔ (code.name, category) ∈ codeTable := by
  cases code with
  | other name unknown =>
    refine iff_of_false (by simp [ofCode?]) ?_
    intro listed
    have known : name ∈ FailureCode.knownNames := by
      simp only [codeTable, List.mem_cons, Prod.mk.injEq, List.not_mem_nil, or_false] at listed
      simp only [FailureCode.knownNames, List.mem_cons, List.not_mem_nil, or_false]
      tauto
    exact unknown known
  | _ => cases category <;> decide

theorem name_mem_of_ofCode? {code : FailureCode} {category : Category}
    (meaning : ofCode? code = some category) :
    code.name ∈ FailureCode.knownNames := by
  cases code with
  | other name unknown => cases meaning
  | _ => decide

theorem exists_ofCode? {code : FailureCode} (known : code.name ∈ FailureCode.knownNames) :
    ∃ category, ofCode? code = some category := by
  cases code with
  | other name unknown => exact absurd known unknown
  | _ => exact ⟨_, rfl⟩

/-- The category that a failure should be given. -/
inductive Categorized (f : Failure) : Category → Prop
  | interrupted {i : Interrupt} (reached : f.Reaches (.interrupted i)) : Categorized f .timeout
  | coded {code : FailureCode} {category : Category} (calm : ∀ i, ¬ f.Reaches (.interrupted i))
      (outermost : f.Outermost code) (listed : (code.name, category) ∈ codeTable) :
      Categorized f category
  | worded {category : Category} (calm : ∀ i, ¬ f.Reaches (.interrupted i))
      (uncoded : ∀ code, f.Outermost code → code.name ∉ FailureCode.knownNames)
      (named : FirstNamed (Text.lower f.message).toList words category) : Categorized f category

theorem of_eq_iff {f : Failure} {category : Category} :
    of f = category ↔ Categorized f category := by
  unfold of
  by_cases interrupted : f.interrupt?.isSome = true
  · rw [if_pos interrupted]
    obtain ⟨i, reached⟩ := Failure.interrupt?_isSome_iff.mp interrupted
    constructor
    · rintro rfl
      exact .interrupted reached
    · intro categorized
      cases categorized with
      | interrupted => rfl
      | coded calm => exact absurd reached (calm i)
      | worded calm => exact absurd reached (calm i)
  rw [if_neg interrupted]
  have calm : ∀ i, ¬ f.Reaches (.interrupted i) := by
    intro i reached
    exact interrupted (Failure.interrupt?_isSome_iff.mpr ⟨i, reached⟩)
  cases decided : f.code?.bind ofCode? with
  | some own =>
    obtain ⟨code, found, meaning⟩ := Option.bind_eq_some_iff.mp decided
    have outermost := Failure.code?_eq_some_iff.mp found
    constructor
    · rintro rfl
      exact .coded calm outermost (ofCode?_eq_some_iff.mp meaning)
    · intro categorized
      cases categorized with
      | interrupted reached => exact absurd reached (calm _)
      | coded _ other listed =>
        -- there is one outermost code, and it stands for one category
        have same := (Failure.code?_eq_some_iff.mpr other).symm.trans found
        rw [Option.some.injEq] at same
        rw [same, ← ofCode?_eq_some_iff, meaning, Option.some.injEq] at listed
        exact listed
      | worded _ uncoded => exact absurd (name_mem_of_ofCode? meaning) (uncoded code outermost)
  | none =>
    have uncoded : ∀ code, f.Outermost code → code.name ∉ FailureCode.knownNames := by
      intro code outermost known
      rw [Failure.code?_eq_some_iff.mpr outermost, Option.bind_some] at decided
      obtain ⟨category, meaning⟩ := exists_ofCode? known
      rw [decided] at meaning
      cases meaning
    show (ofText? f.message).getD .unknown = category ↔ _
    unfold ofText?
    rw [← firstNamed_iff]
    constructor
    · intro named
      exact .worded calm uncoded named
    · intro categorized
      cases categorized with
      | interrupted reached => exact absurd reached (calm _)
      | coded _ outermost listed =>
        exact absurd (name_mem_of_ofCode? (ofCode?_eq_some_iff.mpr listed)) (uncoded _ outermost)
      | worded _ _ named => exact named

end Category

/-! ## Enclosing a failure -/

namespace Failure

/-- A failure inside any number of notes, entries and categories. -/
inductive Encloses (f : Failure) : Failure → Prop
  | bare : Encloses f f
  | noted {g : Failure} (note : String) (inner : Encloses f g) : Encloses f (.noted note g)
  | atEntry {g : Failure} (entry : String) (inner : Encloses f g) : Encloses f (.atEntry entry g)
  | categorizedBy {g : Failure} (category text : String) (inner : Encloses f g) :
      Encloses f (.categorizedBy category text g)

theorem Encloses.kept {f g : Failure} (encloses : Encloses f g) :
    g.interrupt? = f.interrupt? ∧ g.code? = f.code? := by
  induction encloses with
  | bare => exact ⟨rfl, rfl⟩
  | noted _ _ ih => exact ih
  | atEntry _ _ ih => exact ih
  | categorizedBy _ _ _ ih => exact ih

/-- What is known of a failure without its message. -/
def Decided (f : Failure) : Prop :=
  (∃ i, f.Reaches (.interrupted i)) ∨ ∃ code, f.Outermost code ∧ code.name ∈ FailureCode.knownNames

theorem Encloses.of_eq {f g : Failure} (encloses : Encloses f g) (decided : f.Decided) :
    Category.of g = Category.of f := by
  obtain ⟨interrupt, code⟩ := encloses.kept
  unfold Category.of
  rw [interrupt, code]
  rcases decided with interrupted | ⟨code, outermost, known⟩
  · rw [if_pos (interrupt?_isSome_iff.mpr interrupted),
      if_pos (interrupt?_isSome_iff.mpr interrupted)]
  · obtain ⟨category, meaning⟩ := Category.exists_ofCode? known
    rw [code?_eq_some_iff.mpr outermost, Option.bind_some, meaning]

end Failure

/-! ## Analyses that are interrupted -/

theorem PathsAnalysis.error_of_behind {log : List Log.Line} {result : PathResult}
    {others : PathsAnalysis} {f : Failure}
    (failed : (others.behind log result).outcome = .error f) : others.outcome = .error f := by
  unfold behind at failed
  cases rest : others.outcome with
  | ok results =>
    rw [rest] at failed
    cases failed
  | error g =>
    rw [rest] at failed
    exact failed

/-- An analysis fails for nothing but an interrupt. -/
theorem interrupted_of_analyzePathsBy {tree : FileTree} {request : Request} {limit : Nat}
    {courses : Nat → Course} {context : Option Interrupt} {position : Nat} {paths : List String}
    {f : Failure} (failed :
      (analyzePathsBy tree request limit courses context position paths).outcome = .error f) :
    f.interrupt?.isSome = true := by
  induction paths generalizing context position with
  | nil => cases failed
  | cons path rest ih =>
    unfold analyzePathsBy at failed
    split at failed
    next reason =>
      cases failed
      rfl
    next =>
      simp only at failed
      split at failed
      next => exact ih (PathsAnalysis.error_of_behind failed)
      next cause =>
        split at failed
        next interrupted =>
          cases failed
          exact interrupted
        next => exact ih (PathsAnalysis.error_of_behind failed)

theorem interrupted_of_analyzeBy {host : Host} {request : Request} {limit : Nat}
    {courses : Nat → Course} {context : Option Interrupt} {f : Failure}
    (failed : (analyzeBy host request limit courses context).outcome = .error f) :
    f.interrupt?.isSome = true := by
  have failed : (analyzePathsBy host.tree request limit courses context 0 request.paths).outcome.map
      (Report.ofResults host) = .error f := failed
  cases paths :
    (analyzePathsBy host.tree request limit courses context 0 request.paths).outcome with
  | ok results =>
    rw [paths] at failed
    cases failed
  | error g =>
    rw [paths] at failed
    cases failed
    exact interrupted_of_analyzePathsBy paths

namespace Request

/-- Carry out a request whose archives are analyzed by a service. -/
def runBy (host : Host) (layering : Layering) (browser : String → Except String Unit)
    (service : Request → Analysis) (r : Request) : Run :=
  let prepared :=
    (r.analyzedBy host layering fun final => pure (service final) : Id PreparedAnalysis).run
  match prepared.outcome with
  | .error f => ⟨{ tree := host.tree, failure := some f }, prepared.log⟩
  | .ok p => ⟨p.deliver host browser, prepared.log⟩

theorem run_eq_runBy (host : Host) (layering : Layering) (browser : String → Except String Unit)
    (interrupt : Option Interrupt) (r : Request) :
    r.run host layering browser interrupt = r.runBy host layering browser fun final =>
      analyze host final interrupt := by
  unfold run runBy
  rewrite [analyzed_eq_analyzedBy]
  rfl

/-- The failure of an analysis is wrapped, and nothing is delivered. -/
theorem failure_runBy {host : Host} {layering : Layering} {service : Request → Analysis}
    {r final : Request} {cause : Failure} (prepared : r.prepare host layering = .ok final)
    (failed : (service final).outcome = .error cause) (browser : String → Except String Unit) :
    (r.runBy host layering browser service).delivery.failure =
      some (.codedBy .analysis "jar analysis failed" cause) := by
  have stopped :
      ((r.analyzedBy host layering fun final =>
        pure (service final) : Id PreparedAnalysis).run).outcome =
      .error (.codedBy .analysis "jar analysis failed" cause) := by
    unfold analyzedBy
    rw [prepared]
    show ((service final).outcome.map _).mapError _ = _
    rw [failed]
    rfl
  unfold runBy
  simp only [stopped]

end Request

/-- The category of a failure is that of an interrupt among its causes, or else that of its
outermost code if this is a known one, or else the first one that its message names. Where the
message does not decide, notes, entries and categories around the failure change nothing. An
analysis fails only for an interrupt, and then the request is told as timed out. -/
theorem category_exact :
    (∀ f category, Category.of f = category ↔ Category.Categorized f category) ∧
    (∀ f g : Failure, f.Encloses g → f.Decided → Category.of g = Category.of f) ∧
    (∀ host layering browser (service : Request → Analysis) (r final : Request) cause,
      r.prepare host layering = .ok final → (service final).outcome = .error cause →
      (∃ i, cause.Reaches (.interrupted i)) →
      ∃ f, (r.runBy host layering browser service).delivery.failure = some f ∧
        Category.of f = .timeout) ∧
    (∀ host request limit courses context cause,
      (analyzeBy host request limit courses context).outcome = .error cause →
      ∃ i, cause.Reaches (.interrupted i)) ∧
    ∀ host layering browser interrupt (r final : Request) cause,
      r.prepare host layering = .ok final → (analyze host final interrupt).outcome = .error cause →
      ∃ f, (r.run host layering browser interrupt).delivery.failure = some f ∧
        Category.of f = .timeout := by
  have wrapped {cause : Failure} (reached : ∃ i, cause.Reaches (.interrupted i)) :
      Category.of (.codedBy .analysis "jar analysis failed" cause) = .timeout := by
    obtain ⟨i, reached⟩ := reached
    exact Category.of_eq_iff.mpr (.interrupted (.through rfl reached))
  refine ⟨fun f category => Category.of_eq_iff,
    fun f g encloses decided => encloses.of_eq decided, ?_, ?_, ?_⟩
  · intro host layering browser service r final cause prepared failed reached
    exact ⟨_, Request.failure_runBy prepared failed browser, wrapped reached⟩
  · intro host request limit courses context cause failed
    exact Failure.interrupt?_isSome_iff.mp (interrupted_of_analyzeBy failed)
  · intro host layering browser interrupt r final cause prepared failed
    rw [Request.run_eq_runBy]
    have reached := Failure.interrupt?_isSome_iff.mp (interrupted_of_analyzeBy failed)
    exact ⟨_, Request.failure_runBy prepared failed browser, wrapped reached⟩

/-- An interrupt that only the message tells of, below a code and inside an entry, a note and a
category; and a request that is cancelled before its first archive. -/
theorem category_exact_flattened :
    let f : Failure := .codedBy .archive "config" (.flattened "timeout" (.interrupted .canceled))
    let g : Failure := .categorizedBy "Unknown Error" "" (.noted "output" (.atEntry "A.class" f))
    let r := Tools.listRequest settingsFileName "x.jar" "complexity" 0
    f.Decided ∧ f.Encloses g ∧ Category.of g = .processing ∧
      ∃ final cause, r.prepare Tools.limitedHost .filled = .ok final ∧
        (analyze Tools.limitedHost final (some .canceled)).outcome = .error cause ∧
        ∃ failure,
          (r.run Tools.limitedHost .filled (fun _ => .ok ()) (some .canceled)).delivery.failure =
            some failure ∧
          Category.of failure = .timeout := by
  intro f g r
  obtain ⟨exactly, enclosed, -, -, executed⟩ := category_exact
  have outermost : f.Outermost .archive := .here rfl
  have calm : ∀ i, ¬ f.Reaches (.interrupted i) := by
    intro i reached
    simpa [f, Failure.chain] using Failure.mem_chain_iff.mpr reached
  have decided : f.Decided := .inr ⟨.archive, outermost, by decide⟩
  have encloses : f.Encloses g := .categorizedBy _ _ (.noted _ (.atEntry _ .bare))
  have own : Category.of f = .processing :=
    (exactly f .processing).mpr (.coded calm outermost (by decide))
  have sound : r.error? = none := by
    rw [Tools.error?_listRequest (by decide), if_neg (by decide)]
  have prepared := Request.prepare_filled sound Tools.settings_limitedHost
    (Request.nameError?_overlay (by decide +kernel) rfl (by decide)) Tools.resolveJars_limitedHost
  exact ⟨decided, encloses, (enclosed f g encloses decided).trans own, _, _, prepared, rfl,
    executed _ _ _ _ r _ _ prepared rfl⟩

end JarMetrics
