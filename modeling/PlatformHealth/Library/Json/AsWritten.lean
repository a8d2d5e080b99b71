import PlatformHealth.Library.Binary64Error
import PlatformHealth.Library.Json.Reader
import PlatformHealth.Library.Yields

namespace Json

-- a number as the text has it, where the reader has a double
def asWritten (q : ℚ) : Option ℚ := some q

def roundedScalar : Json → Json
  | .float q => .float (Binary64.toDouble q)
  | v => v

def rounded (v : Json) : Json := v.mapScalars roundedScalar

def Token.rounded : Token → Token
  | .value v => .value v.rounded
  | t => t

def Frame.rounded : Frame → Frame
  | .array elements => .array (mapElements roundedScalar elements)
  | .object members key => .object (mapMembers roundedScalar members) key

def State.rounded : State → State
  | .reading stack mode => .reading (stack.map Frame.rounded) mode
  | .done v => .done v.rounded

def Lexer.rounded : Lexer → Lexer
  | .literal expected v => .literal expected v.rounded
  | l => l

def Scanned.rounded : Scanned → Scanned
  | .lexer l => .lexer l.rounded
  | .token t => .token t.rounded
  | .invalid => .invalid

def Reader.rounded (r : Reader) : Reader where
  state := r.state.rounded
  lexer := r.lexer.rounded

theorem member_rounded (v : Json) (key : String) : v.rounded.member key = (v.member key).map rounded := by
  refine member_mapScalars roundedScalar (fun w hw => ?_) v
  cases w with
  | float q => rfl
  | _ => exact hw

theorem items_rounded (v : Json) : v.rounded.items = v.items.map rounded := by
  cases v with
  | null => rfl
  | array elements => exact mapElements_eq roundedScalar elements
  | object members =>
    change (mapMembers roundedScalar members).map Prod.snd = (members.map Prod.snd).map rounded
    rw [mapMembers_eq, List.map_map, List.map_map]
    rfl
  | _ => rfl

theorem floatToken_asWritten (n : Numeral) : (n.floatToken asWritten).rounded = n.floatToken ∨
    n.floatToken = .overflow ∧ ∃ q, n.floatToken asWritten = .value (.float q) := by
  unfold Numeral.floatToken asWritten
  generalize (if n.negative then -n.magnitude else n.magnitude) = q
  cases hround : Binary64.round q with
  | none => exact .inr ⟨rfl, q, rfl⟩
  | some d => exact .inl (congrArg (fun q => Token.value (.float q)) (Binary64.toDouble_of_round hround))

theorem token_asWritten (n : Numeral) : (n.token asWritten).rounded = n.token ∨
    n.token = .overflow ∧ ∃ q, n.token asWritten = .value (.float q) := by
  have hfloat := floatToken_asWritten n
  unfold Numeral.token
  split_ifs <;> first | exact hfloat | exact .inl rfl

theorem deliver_rounded (v : Json) (stack : List Frame) :
    deliver v.rounded (stack.map Frame.rounded) = (deliver v stack).rounded := by
  cases stack with
  | nil => rfl
  | cons frame stack =>
    cases frame with
    | array elements =>
      have happend : mapElements roundedScalar (elements ++ [v]) =
          mapElements roundedScalar elements ++ [v.rounded] := by
        rw [mapElements_eq, mapElements_eq, List.map_append]
        rfl
      exact congrArg (fun es => State.reading (.array es :: stack.map Frame.rounded) .separator) happend.symm
    | object members key =>
      exact congrArg (fun ms => State.reading (.object ms "" :: stack.map Frame.rounded) .separator)
        (setMember_mapMembers roundedScalar members key v)

theorem step_rounded (s : State) (t : Token) : s.rounded.step t.rounded = State.rounded <$> s.step t := by
  have hdeliver (v : Json) (stack : List Frame) :
      (Except.ok (deliver v.rounded (stack.map Frame.rounded)) : Except ReadError State) =
        State.rounded <$> Except.ok (deliver v stack) := congrArg Except.ok (deliver_rounded v stack)
  cases s with
  | done v => cases t <;> rfl
  | reading stack mode =>
    cases mode with
    | value =>
      cases t with
      | value v => exact hdeliver v stack
      | _ => rfl
    | first =>
      cases t with
      | value v => exact hdeliver v stack
      | endArray =>
        rcases stack with _ | ⟨_ | _, stack⟩
        · rfl
        · exact hdeliver (.array _) stack
        · rfl
      | _ => rfl
    | firstKey =>
      cases t with
      | value v => rcases stack with _ | ⟨_ | _, stack⟩ <;> cases v <;> rfl
      | endObject =>
        rcases stack with _ | ⟨_ | _, stack⟩
        · rfl
        · rfl
        · exact hdeliver (.object _) stack
      | _ => rfl
    | key =>
      cases t with
      | value v => rcases stack with _ | ⟨_ | _, stack⟩ <;> cases v <;> rfl
      | _ => rfl
    | colon => cases t <;> rfl
    | separator =>
      cases t with
      | valueSeparator => rcases stack with _ | ⟨_ | _, stack⟩ <;> rfl
      | endArray =>
        rcases stack with _ | ⟨_ | _, stack⟩
        · rfl
        · exact hdeliver (.array _) stack
        · rfl
      | endObject =>
        rcases stack with _ | ⟨_ | _, stack⟩
        · rfl
        · rfl
        · exact hdeliver (.object _) stack
      | _ => rfl

theorem scan_rounded (b : UInt8) : (scan b).rounded = scan b := by
  unfold scan
  iterate 11
    rw [apply_ite Scanned.rounded]
    refine if_congr Iff.rfl rfl ?_
  split <;> rfl

theorem next_rounded (l : Lexer) (b : UInt8) : l.rounded.next b = (l.next b).rounded := by
  cases l with
  | between =>
    simp only [Lexer.rounded, Lexer.next]
    split
    · rfl
    · exact (scan_rounded b).symm
  | literal expected v =>
    rcases expected with _ | ⟨c, _ | ⟨d, rest⟩⟩
    · rfl
    all_goals
      simp only [Lexer.rounded, Lexer.next]
      split <;> rfl
  | number state n =>
    simp only [Lexer.rounded, Lexer.next]
    cases scanNumber state n (some b) <;> rfl
  | string state chars =>
    simp only [Lexer.rounded, Lexer.next]
    split
    · rfl
    · cases scanString state b <;> rfl

def Agrees {α β : Type} (f : α → β) (x : Except ReadError α) (y : Except ReadError β) : Prop :=
  y = f <$> x ∨ y = .error .outOfRange

section
variable {α β γ δ : Type} {f : α → β} {g : γ → δ}

theorem Agrees.ok (a : α) : Agrees f (.ok a) (.ok (f a)) := .inl rfl

theorem Agrees.error (e : ReadError) : Agrees f (.error e) (.error e) := .inl rfl

theorem Agrees.bind {x : Except ReadError α} {y : Except ReadError β} {k : α → Except ReadError γ}
    {l : β → Except ReadError δ} (h : Agrees f x y) (hk : ∀ a, Agrees g (k a) (l (f a))) :
    Agrees g (x >>= k) (y >>= l) := by
  rcases h with rfl | rfl
  · cases x with
    | error e => exact .error e
    | ok a => exact hk a
  · exact .inr rfl

end

theorem overflow_agrees (s : State) (q : ℚ) :
    Agrees State.rounded (s.step (.value (.float q))) (s.rounded.step .overflow) := by
  cases s with
  | done v => exact .error _
  | reading stack mode =>
    rcases mode with _ | _ | _ | _ | _ | _ <;> first | exact .inr rfl | exact .error _

namespace Reader

variable (r : Reader)

theorem step_agrees {t t' : Token} (h : t'.rounded = t ∨ t = .overflow ∧ ∃ q, t' = .value (.float q)) :
    Agrees rounded (do return ({ state := ← r.state.step t' } : Reader))
      (do return ({ state := ← r.rounded.state.step t } : Reader)) := by
  have hstep : Agrees State.rounded (r.state.step t') (r.rounded.state.step t) := by
    rcases h with rfl | ⟨rfl, q, rfl⟩
    · exact .inl (step_rounded r.state t')
    · exact overflow_agrees r.state q
  refine hstep.bind fun s => ?_
  exact Agrees.ok ({ state := s } : Reader)

theorem settle_agrees (b : Option UInt8) : Agrees rounded (r.settle b asWritten) (r.rounded.settle b) := by
  obtain ⟨s, lexer⟩ := r
  unfold settle
  cases lexer with
  | number state n =>
    simp only [rounded, Lexer.rounded]
    cases scanNumber state n b with
    | more state n => exact .ok _
    | done => exact step_agrees ⟨s, .number state n⟩ (token_asWritten n)
    | invalid => exact .error _
  | _ => exact .ok _

theorem advance_agrees (b : UInt8) : Agrees rounded (r.advance b) (r.rounded.advance b) := by
  unfold advance
  have hnext : r.rounded.lexer.next b = (r.lexer.next b).rounded := next_rounded r.lexer b
  rw [hnext]
  cases r.lexer.next b with
  | lexer l => exact .ok _
  | token t => exact step_agrees r (.inl rfl)
  | invalid => exact .error _

theorem read_agrees (s : List UInt8) :
    Agrees (Prod.map Json.rounded id) (r.read s asWritten) (r.rounded.read s) := by
  induction s generalizing r with
  | nil =>
    rw [read, read]
    refine (settle_agrees r none).bind fun m => ?_
    obtain ⟨state, lexer⟩ := m
    cases state with
    | done v => exact .ok (v, [])
    | reading stack mode => exact .error _
  | cons b s ih =>
    rw [read, read]
    refine (settle_agrees r (some b)).bind fun m => ?_
    obtain ⟨state, lexer⟩ := m
    cases state with
    | done v => exact .ok (v, b :: s)
    | reading stack mode => exact (advance_agrees ⟨.reading stack mode, lexer⟩ b).bind fun m => ih m

end Reader

theorem parse_agrees (strict : Bool) (s : List UInt8) :
    Agrees rounded (parse strict s asWritten) (parse strict s) := by
  have hfirst : Agrees (Prod.map rounded id) (readFirst s asWritten) (readFirst s) := by
    rw [readFirst, readFirst]
    cases skipBom s with
    | error e => exact .error e
    | ok text => exact Reader.read_agrees {} text
  refine hfirst.bind fun p => ?_
  obtain ⟨v, rest⟩ := p
  change Agrees rounded (if (strict && !endOfInput rest) = true then .error .syntaxError else .ok v)
    (if (strict && !endOfInput rest) = true then .error .syntaxError else .ok v.rounded)
  split
  · exact .error _
  · exact .ok v

theorem asWritten_of_parse {strict : Bool} {s : List UInt8} {v : Json} (h : parse strict s = .ok v) :
    ∃ written, parse strict s asWritten = .ok written ∧ v = written.rounded := by
  rcases parse_agrees strict s with hread | hread
  · rw [h] at hread
    obtain ⟨written, hwritten, hv⟩ := Yields.map_eq_ok_iff.mp hread.symm
    exact ⟨written, hwritten, hv.symm⟩
  · cases hread.symm.trans h

theorem parse_of_asWritten {strict : Bool} {s : List UInt8} {written : Json}
    (h : parse strict s asWritten = .ok written) :
    parse strict s = .ok written.rounded ∨ parse strict s = .error .outOfRange := by
  have hagrees := parse_agrees strict s
  rwa [h] at hagrees

end Json
