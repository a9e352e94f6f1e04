/-
  ChatMarkup/Proofs/Json/Reader.lean
  ==================================
  **One pass over the tokens reads a document** — the pass accepts the tokens of a document that
  is not nested too deep and no others (`run_itself_eq_ok_iff`), and on these it interprets the
  document, whatever the interpretation (`run_tokens`).

  For the first, a state of the pass is taken apart into the tokens that lead to it
  (`State.written`); every step adds the token that it reads.
-/
import ChatMarkup.Json.Mirror
import ChatMarkup.Proofs.Result

namespace ChatMarkup.Json

open Document

variable {ε α : Type} {meaning : Interpretation ε α} {document : Document}

/-! ### Reading the tokens of a document -/

theorem run_cons (meaning : Interpretation ε α) (state : State α) (token : Token)
    (rest : List Token) :
    run meaning state (token :: rest) =
      state.step meaning token >>= fun next => run meaning next rest := by
  rw [run]

theorem mapError_bind {ε' β : Type} (x : Except ε α) (f : α → Except ε β) (g : ε → ε') :
    (x >>= f).mapError g = x.mapError g >>= fun a => (f a).mapError g := by
  cases x <;> rfl

theorem mapError_map_bind {ε' β γ : Type} (x : Except ε α) (f : α → β) (g : ε → ε')
    (k : β → Except ε' γ) : ((x.map f).mapError g >>= k) = x.mapError g >>= fun a => k (f a) := by
  cases x <;> rfl

/-- A document does not begin with what ends a list. -/
theorem run_listStart (frames : List (Frame α)) (rest : List Token) :
    run meaning (.listStart frames) (document.tokens ++ rest) =
      run meaning (.value (.list [] :: frames)) (document.tokens ++ rest) := by
  cases document <;> rfl

mutual

/-- **Reading the tokens of a document interprets it.** -/
theorem run_tokens (meaning : Interpretation ε α) (document : Document) (frames : List (Frame α))
    (rest : List Token) (room : frames.length + document.depth ≤ maxDepth) :
    run meaning (.value frames) (document.tokens ++ rest) =
      (document.interpret meaning).mapError Error.refused >>= fun value =>
        run meaning (.complete value frames) rest := by
  match document with
  | .atom leaf =>
    rw [Document.tokens, List.singleton_append, run_cons, interpret]
    exact mapError_map_bind _ _ _ _
  | .list items =>
    rw [depth] at room
    rw [Document.tokens, List.cons_append, run_cons, interpret, mapError_map_bind]
    have step : State.step meaning (.value frames) .openList = .ok (.listStart frames) :=
      if_pos (by omega)
    rw [step, ok_bind]
    match items with
    | [] => rfl
    | item :: items =>
      rw [itemDepth] at room
      rw [itemTokens, List.nil_append, List.append_assoc, run_listStart,
        run_tokens meaning item (.list [] :: frames) _ (by rw [List.length_cons]; omega),
        interpretItems, mapError_bind, bind_assoc]
      -- behind the first part stand the others, each with its comma
      refine bind_congr fun value => ?_
      rw [run_itemTokens meaning items frames [] value rest (by omega), mapError_bind, bind_assoc]
      rfl
  | .object members =>
    rw [depth] at room
    rw [Document.tokens, List.cons_append, run_cons, interpret, mapError_map_bind]
    have step : State.step meaning (.value frames) .openObject = .ok (.objectStart frames) :=
      if_pos (by omega)
    rw [step, ok_bind]
    match members with
    | [] => rfl
    | (name, member) :: members =>
      rw [memberDepth] at room
      have named (rest : List Token) :
          run meaning (.objectStart frames) (.atom (.string name) :: .colon :: rest) =
            run meaning (.value (.object [] name :: frames)) rest := rfl
      rw [memberTokens, List.nil_append, List.append_assoc, List.cons_append, List.cons_append,
        named, run_tokens meaning member _ _ (by rw [List.length_cons]; omega),
        interpretMembers, mapError_bind, bind_assoc]
      refine bind_congr fun value => ?_
      rw [run_memberTokens meaning members frames [] name value rest (by omega), mapError_bind,
        bind_assoc]
      rfl

/-- The items behind one that has been read. -/
theorem run_itemTokens (meaning : Interpretation ε α) (items : List Document)
    (frames : List (Frame α)) (before : List α) (value : α) (rest : List Token)
    (room : frames.length + (itemDepth items + 1) ≤ maxDepth) :
    run meaning (.complete value (.list before :: frames)) (itemTokens [.comma] items ++ rest) =
      (interpretItems meaning items).mapError Error.refused >>= fun values =>
        run meaning (.complete (meaning.list ((value :: before).reverse ++ values)) frames)
          rest := by
  match items with
  | [] =>
    rw [interpretItems, Except.mapError, ok_bind, List.append_nil]
    rfl
  | item :: items =>
    rw [itemDepth] at room
    -- a comma, and the list waits for an item with one more in front of it
    have next (rest : List Token) :
        run meaning (.complete value (.list before :: frames)) (.comma :: rest) =
          run meaning (.value (.list (value :: before) :: frames)) rest := rfl
    rw [itemTokens, List.singleton_append, List.cons_append, List.cons_append, List.append_assoc,
      next, run_tokens meaning item _ _ (by rw [List.length_cons]; omega), interpretItems,
      mapError_bind, bind_assoc]
    refine bind_congr fun second => ?_
    rw [run_itemTokens meaning items frames (value :: before) second rest (by omega), mapError_bind,
      bind_assoc]
    refine bind_congr fun values => ?_
    -- the values in front are kept in reverse, the others follow them in order
    rw [Except.mapError, ok_bind, List.reverse_cons, List.append_assoc]
    rfl

/-- The members behind one that has been read. -/
theorem run_memberTokens (meaning : Interpretation ε α) (members : List (String × Document))
    (frames : List (Frame α)) (before : List (String × α)) (name : String) (value : α)
    (rest : List Token) (room : frames.length + (memberDepth members + 1) ≤ maxDepth) :
    run meaning (.complete value (.object before name :: frames))
        (memberTokens [.comma] members ++ rest) =
      (interpretMembers meaning members).mapError Error.refused >>= fun values =>
        run meaning
          (.complete (meaning.object (((name, value) :: before).reverse ++ values)) frames)
          rest := by
  match members with
  | [] =>
    rw [interpretMembers, Except.mapError, ok_bind, List.append_nil]
    rfl
  | (name', member) :: members =>
    rw [memberDepth] at room
    have next (rest : List Token) :
        run meaning (.complete value (.object before name :: frames))
            (.comma :: .atom (.string name') :: .colon :: rest) =
          run meaning (.value (.object ((name, value) :: before) name' :: frames)) rest := rfl
    rw [memberTokens, List.singleton_append, List.cons_append, List.cons_append, List.cons_append,
      List.cons_append, List.cons_append, List.cons_append, List.append_assoc,
      next, run_tokens meaning member _ _ (by rw [List.length_cons]; omega), interpretMembers,
      mapError_bind, bind_assoc]
    refine bind_congr fun second => ?_
    rw [run_memberTokens meaning members frames ((name, value) :: before) name' second rest
      (by omega), mapError_bind, bind_assoc]
    refine bind_congr fun values => ?_
    rw [Except.mapError, ok_bind, List.reverse_cons, List.append_assoc]
    rfl

end

/-! ### The tokens that have been read -/

def itemsWritten : List Document → List Token
  | [] => []
  | item :: before => itemsWritten before ++ item.tokens ++ [.comma]

def membersWritten : List (String × Document) → List Token
  | [] => []
  | (name, member) :: before =>
    membersWritten before ++ .atom (.string name) :: .colon :: member.tokens ++ [.comma]

def Frame.written : Frame Document → List Token
  | .list before => .openList :: itemsWritten before
  | .object before name =>
    .openObject :: membersWritten before ++ [.atom (.string name), .colon]

def framesWritten : List (Frame Document) → List Token
  | [] => []
  | frame :: frames => framesWritten frames ++ frame.written

def State.written : State Document → List Token
  | .value frames => framesWritten frames
  | .listStart frames => framesWritten frames ++ [.openList]
  | .objectStart frames => framesWritten frames ++ [.openObject]
  | .key before frames => framesWritten frames ++ .openObject :: membersWritten before
  | .colon before name frames =>
    framesWritten frames ++ .openObject :: membersWritten before ++ [.atom (.string name)]
  | .complete document frames => framesWritten frames ++ document.tokens

theorem itemTokens_reverse_append (before items : List Document) (item : Document) :
    itemTokens [] (before.reverse ++ item :: items) =
      itemsWritten before ++ item.tokens ++ itemTokens [.comma] items := by
  induction before generalizing item items with
  | nil => simp [itemTokens, itemsWritten]
  | cons earlier before ih =>
    rw [List.reverse_cons, List.append_assoc, List.singleton_append, ih, itemTokens, itemsWritten]
    simp

theorem memberTokens_reverse_append (before members : List (String × Document)) (name : String)
    (member : Document) :
    memberTokens [] (before.reverse ++ (name, member) :: members) =
      membersWritten before ++ .atom (.string name) :: .colon :: member.tokens ++
        memberTokens [.comma] members := by
  induction before generalizing name member members with
  | nil => simp [memberTokens, membersWritten]
  | cons earlier before ih =>
    rw [List.reverse_cons, List.append_assoc, List.singleton_append, ih, memberTokens,
      membersWritten]
    simp

theorem tokens_list_reverse (before : List Document) (item : Document) :
    (Document.list (item :: before).reverse).tokens =
      .openList :: itemsWritten before ++ item.tokens ++ [.closeList] := by
  rw [Document.tokens, List.reverse_cons, itemTokens_reverse_append, itemTokens]
  simp

theorem tokens_object_reverse (before : List (String × Document)) (name : String)
    (member : Document) :
    (Document.object ((name, member) :: before).reverse).tokens =
      .openObject :: membersWritten before ++ .atom (.string name) :: .colon :: member.tokens ++
        [.closeObject] := by
  rw [Document.tokens, List.reverse_cons, memberTokens_reverse_append, memberTokens]
  simp

theorem written_stepValue {frames : List (Frame Document)} {token : Token} {next : State Document}
    (step : State.stepValue Document.itself frames token = .ok next) :
    next.written = framesWritten frames ++ [token] := by
  unfold State.stepValue State.opened at step
  split at step
  · cases step
    rw [State.written, Document.tokens]
  · split at step <;> cases step
    rfl
  · split at step <;> cases step
    rfl
  · cases step

theorem written_stepComplete {document : Document} {frames : List (Frame Document)} {token : Token}
    {next : State Document}
    (step : State.stepComplete Document.itself document frames token = .ok next) :
    next.written = framesWritten frames ++ document.tokens ++ [token] := by
  unfold State.stepComplete at step
  split at step <;> cases step
  · simp [State.written, framesWritten, Frame.written, itemsWritten]
  · rw [State.written, itself, tokens_list_reverse]
    simp [framesWritten, Frame.written]
  · simp [State.written, framesWritten, Frame.written, membersWritten]
  · rw [State.written, itself, tokens_object_reverse]
    simp [framesWritten, Frame.written]

/-- A step adds the token that it reads. -/
theorem written_step {state next : State Document} {token : Token}
    (step : state.step Document.itself token = .ok next) :
    next.written = state.written ++ [token] := by
  -- the cases are those of `step`; every one of them writes the token behind what was written
  unfold State.step at step
  split at step
  · exact written_stepValue step
  · cases step
    simp [State.written, itself, Document.tokens, itemTokens]
  · rw [written_stepValue step]
    simp [State.written, framesWritten, Frame.written, itemsWritten]
  · cases step
    simp [State.written, itself, Document.tokens, memberTokens]
  · cases step
    simp [State.written, membersWritten]
  · cases step
    simp [State.written]
  · cases step
    simp [State.written, framesWritten, Frame.written]
  · exact written_stepComplete step
  · cases step

/-! ### How much is open -/

/-- Nothing that is open, nor anything in it, is nested too deep. -/
def Shallow : List (Frame Document) → Prop
  | [] => True
  | .list before :: frames =>
    Shallow frames ∧ frames.length + (itemDepth before + 1) ≤ maxDepth
  | .object before _ :: frames =>
    Shallow frames ∧ frames.length + (memberDepth before + 1) ≤ maxDepth

def State.Shallow : State Document → Prop
  | .value frames => Json.Shallow frames
  | .listStart frames => Json.Shallow frames ∧ frames.length < maxDepth
  | .objectStart frames => Json.Shallow frames ∧ frames.length < maxDepth
  | .key before frames | .colon before _ frames =>
    Json.Shallow frames ∧ frames.length + (memberDepth before + 1) ≤ maxDepth
  | .complete document frames => Json.Shallow frames ∧ frames.length + document.depth ≤ maxDepth

theorem itemDepth_append (items more : List Document) :
    itemDepth (items ++ more) = max (itemDepth items) (itemDepth more) := by
  induction items with
  | nil => rw [List.nil_append, itemDepth, Nat.zero_max]
  | cons item items ih => rw [List.cons_append, itemDepth, itemDepth, ih, Nat.max_assoc]

theorem itemDepth_reverse (items : List Document) : itemDepth items.reverse = itemDepth items := by
  induction items with
  | nil => rfl
  | cons item items ih =>
    rw [List.reverse_cons, itemDepth_append, ih, itemDepth, itemDepth, itemDepth, Nat.max_zero,
      Nat.max_comm]

/-- Names do not count for the depth. -/
theorem memberDepth_eq (members : List (String × Document)) :
    memberDepth members = itemDepth (members.map Prod.snd) := by
  induction members with
  | nil => rfl
  | cons member members ih => rw [memberDepth, ih, List.map_cons, itemDepth]

theorem memberDepth_reverse (members : List (String × Document)) :
    memberDepth members.reverse = memberDepth members := by
  rw [memberDepth_eq, List.map_reverse, itemDepth_reverse, memberDepth_eq]

theorem shallow_stepValue {frames : List (Frame Document)} {token : Token} {next : State Document}
    (shallow : Shallow frames) (length : frames.length ≤ maxDepth)
    (step : State.stepValue Document.itself frames token = .ok next) : next.Shallow := by
  unfold State.stepValue State.opened at step
  split at step
  · cases step
    exact ⟨shallow, length⟩
  · split at step <;> cases step
    exact ⟨shallow, by assumption⟩
  · split at step <;> cases step
    exact ⟨shallow, by assumption⟩
  · cases step

theorem Shallow.length_le {frames : List (Frame Document)} (shallow : Shallow frames) :
    frames.length ≤ maxDepth := by
  match frames, shallow with
  | [], _ => exact Nat.zero_le _
  | .list _ :: _, shallow =>
    have := shallow.2
    rw [List.length_cons]
    omega
  | .object .. :: _, shallow =>
    have := shallow.2
    rw [List.length_cons]
    omega

theorem shallow_stepComplete {document : Document} {frames : List (Frame Document)} {token : Token}
    {next : State Document} (shallow : (State.complete document frames).Shallow)
    (step : State.stepComplete Document.itself document frames token = .ok next) :
    next.Shallow := by
  obtain ⟨open_, inner⟩ := shallow
  -- a comma keeps what is open, a closing bracket makes one document of it
  unfold State.stepComplete at step
  split at step <;> cases step
  · obtain ⟨outer, before⟩ := open_
    rw [List.length_cons] at inner
    exact ⟨outer, by rw [itemDepth]; omega⟩
  · obtain ⟨outer, before⟩ := open_
    rw [List.length_cons] at inner
    exact ⟨outer, by rw [itself, depth, itemDepth_reverse, itemDepth]; omega⟩
  · obtain ⟨outer, before⟩ := open_
    rw [List.length_cons] at inner
    exact ⟨outer, by rw [memberDepth]; omega⟩
  · obtain ⟨outer, before⟩ := open_
    rw [List.length_cons] at inner
    exact ⟨outer, by rw [itself, depth, memberDepth_reverse, memberDepth]; omega⟩

theorem shallow_step {state next : State Document} {token : Token} (shallow : state.Shallow)
    (step : state.step Document.itself token = .ok next) : next.Shallow := by
  unfold State.step at step
  split at step
  · exact shallow_stepValue shallow (Shallow.length_le shallow) step
  · cases step
    exact ⟨shallow.1, shallow.2⟩
  · have item : Shallow (.list [] :: _) := ⟨shallow.1, shallow.2⟩
    exact shallow_stepValue item item.length_le step
  · cases step
    exact ⟨shallow.1, shallow.2⟩
  · cases step
    exact ⟨shallow.1, shallow.2⟩
  · cases step
    exact shallow
  · cases step
    exact shallow
  · exact shallow_stepComplete shallow step
  · cases step

/-! ### What the pass accepts -/

/-- What has been read and what is left are the tokens of the document. -/
theorem written_run {state : State Document} {rest : List Token} (shallow : state.Shallow)
    (accepted : run Document.itself state rest = .ok document) :
    state.written ++ rest = document.tokens ∧ document.depth ≤ maxDepth := by
  -- on what is left to read, with the state that reading has come to
  induction rest generalizing state with
  | nil =>
    unfold run at accepted
    split at accepted
    · cases accepted
      rw [State.written, framesWritten, List.nil_append, List.append_nil]
      refine ⟨rfl, ?_⟩
      have := shallow.2
      rwa [List.length_nil, Nat.zero_add] at this
    · cases accepted
    · rename_i none
      cases none
  | cons token rest ih =>
    rw [run_cons] at accepted
    obtain ⟨next, step, accepted⟩ := bind_eq_ok.mp accepted
    have whole := ih (shallow_step shallow step) accepted
    rwa [written_step step, List.append_assoc] at whole

mutual

theorem interpret_itself (document : Document) :
    document.interpret Document.itself = .ok document := by
  match document with
  | .atom leaf => rfl
  | .list items =>
    rw [interpret, interpretItems_itself]
    rfl
  | .object members =>
    rw [interpret, interpretMembers_itself]
    rfl

theorem interpretItems_itself (items : List Document) :
    interpretItems Document.itself items = .ok items := by
  match items with
  | [] => rfl
  | item :: items =>
    rw [interpretItems, interpret_itself, interpretItems_itself]
    rfl

theorem interpretMembers_itself (members : List (String × Document)) :
    interpretMembers Document.itself members = .ok members := by
  match members with
  | [] => rfl
  | (_, member) :: members =>
    rw [interpretMembers, interpret_itself, interpretMembers_itself]
    rfl

end

/-- **The pass accepts the tokens of the documents that are not nested too deep**, and it reads
    them as these documents. -/
theorem read_itself_eq_ok_iff {text : List Char} :
    read Document.itself text = .ok document ↔
      tokens text = document.tokens ∧ document.depth ≤ maxDepth := by
  constructor
  · intro accepted
    have start : (State.value [] : State Document).Shallow := trivial
    exact written_run start accepted
  · rintro ⟨written, room⟩
    rw [read, written, ← List.append_nil document.tokens, run_tokens _ _ _ _ (by simpa using room),
      interpret_itself]
    rfl

/-- A text that is accepted is read as its document is interpreted. -/
theorem read_of_accepted {text : List Char} (meaning : Interpretation ε α)
    (accepted : read Document.itself text = .ok document) :
    read meaning text = (document.interpret meaning).mapError .refused := by
  obtain ⟨written, room⟩ := read_itself_eq_ok_iff.mp accepted
  rw [read, written, ← List.append_nil document.tokens, run_tokens _ _ _ _ (by simpa using room)]
  cases document.interpret meaning <;> rfl

end ChatMarkup.Json
