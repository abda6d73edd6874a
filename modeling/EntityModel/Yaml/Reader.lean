import EntityModel.Yaml.Token

/-!
# Reading plain YAML

A text is one document of mappings, lists and scalars, which may stand between `---` and `...`.
What is left out, such as the value of a key, is an empty plain scalar. Anchors, aliases, tags and
directives are not read.
-/

namespace EntityModel.Yaml

/-- The node that stands for what is left out. -/
def nothing : Node :=
  .plain ""

/-- Whether a token ends an item of a list of dashes. -/
def Token.endsItem : Token → Bool
  | .dash => true
  | .blockEnd => true
  | _ => false

/-- Whether a token ends a key or a value of a mapping without braces. -/
def Token.endsEntry : Token → Bool
  | .key => true
  | .colon => true
  | .blockEnd => true
  | _ => false

/-- Whether a token ends a key or a value of a pair in a flow list. -/
def Token.endsPair : Token → Bool
  | .comma => true
  | .flowListEnd => true
  | _ => false

/-- Whether a token ends a key or a value of a flow mapping. -/
def Token.endsFlowEntry : Token → Bool
  | .comma => true
  | .flowMappingEnd => true
  | _ => false

/-- Whether a token is a colon. -/
def Token.isColon : Token → Bool
  | .colon => true
  | _ => false

mutual

/-- Read a node; `fuel` bounds the steps. Block collections are allowed only outside of flow ones,
and dashes that are not indented only in a mapping. -/
def node : Nat → Bool → Bool → List Token → Option (Node × List Token)
  | 0, _, _, _ => none
  | fuel + 1, inBlock, inMapping, ts =>
    match ts with
    | .scalar n :: ts => some (n, ts)
    | .flowList :: ts => flowItems fuel [] ts
    | .flowMapping :: ts => flowEntries fuel [] ts
    | .blockList :: ts => if inBlock then blockItems fuel [] ts else none
    | .blockMapping :: ts => if inBlock then blockEntries fuel [] ts else none
    | .dash :: _ => if inMapping then bareItems fuel [] ts else none
    | _ => none

/-- Read a node unless a token tells that it is left out. -/
def nodeUnless : Nat → (Token → Bool) → Bool → Bool → List Token → Option (Node × List Token)
  | 0, _, _, _, _ => none
  | fuel + 1, absent, inBlock, inMapping, ts =>
    if ts.head?.any absent then some (nothing, ts) else node fuel inBlock inMapping ts

/-- Read the items of a list of dashes; `acc` holds those before, in reverse. -/
def blockItems : Nat → List Node → List Token → Option (Node × List Token)
  | 0, _, _ => none
  | fuel + 1, acc, ts =>
    match ts with
    | .blockEnd :: ts => some (.list acc.reverse, ts)
    | .dash :: ts =>
      match nodeUnless fuel Token.endsItem true false ts with
      | some (n, ts) => blockItems fuel (n :: acc) ts
      | none => none
    | _ => none

/-- Read the items of a list whose dashes stand in the column of the keys around it. -/
def bareItems : Nat → List Node → List Token → Option (Node × List Token)
  | 0, _, _ => none
  | fuel + 1, acc, ts =>
    match ts with
    | .dash :: ts =>
      match nodeUnless fuel (fun t => t.endsItem || t.endsEntry) true false ts with
      | some (n, ts) => bareItems fuel (n :: acc) ts
      | none => none
    | _ => some (.list acc.reverse, ts)

/-- Read the entries of a mapping without braces. -/
def blockEntries : Nat → List (Node × Node) → List Token → Option (Node × List Token)
  | 0, _, _ => none
  | fuel + 1, acc, ts =>
    match ts with
    | .blockEnd :: ts => some (.mapping acc.reverse, ts)
    | .key :: ts =>
      match nodeUnless fuel Token.endsEntry true true ts with
      | none => none
      | some (k, .colon :: ts) =>
        match nodeUnless fuel Token.endsEntry true true ts with
        | some (v, ts) => blockEntries fuel ((k, v) :: acc) ts
        | none => none
      | some (k, ts) => blockEntries fuel ((k, nothing) :: acc) ts
    | _ => none

/-- Read the items of a flow list from where one may start. -/
def flowItems : Nat → List Node → List Token → Option (Node × List Token)
  | 0, _, _ => none
  | fuel + 1, acc, ts =>
    let item? : Option (Option Node × List Token) :=
      match ts with
      | .flowListEnd :: _ => some (none, ts)
      | .key :: ts =>
        match flowPair fuel ts with
        | some (n, ts) => some (some n, ts)
        | none => none
      | ts =>
        match node fuel false false ts with
        | some (n, ts) => some (some n, ts)
        | none => none
    match item? with
    | none => none
    | some (item, ts) =>
      let acc := item.toList ++ acc
      match ts with
      | .flowListEnd :: ts => some (.list acc.reverse, ts)
      | .comma :: ts => flowItems fuel acc ts
      | _ => none

/-- Read a pair in a flow list, which is a mapping of one entry. After a question mark, the token
that tells of a missing key is passed over. -/
def flowPair : Nat → List Token → Option (Node × List Token)
  | 0, _ => none
  | fuel + 1, ts =>
    let key? : Option (Node × List Token) :=
      if ts.head?.any fun t => t.endsPair || t.isColon then some (nothing, ts.drop 1)
      else node fuel false false ts
    match key? with
    | none => none
    | some (k, .colon :: ts) =>
      match nodeUnless fuel Token.endsPair false false ts with
      | some (v, ts) => some (.mapping [(k, v)], ts)
      | none => none
    | some (k, ts) => some (.mapping [(k, nothing)], ts)

/-- Read the entries of a flow mapping from where one may start. -/
def flowEntries : Nat → List (Node × Node) → List Token → Option (Node × List Token)
  | 0, _, _ => none
  | fuel + 1, acc, ts =>
    let entry? : Option (Option (Node × Node) × List Token) :=
      match ts with
      | .flowMappingEnd :: _ => some (none, ts)
      | .key :: ts =>
        match nodeUnless fuel (fun t => t.endsFlowEntry || t.isColon) false false ts with
        | none => none
        | some (k, .colon :: ts) =>
          match nodeUnless fuel Token.endsFlowEntry false false ts with
          | some (v, ts) => some (some (k, v), ts)
          | none => none
        | some (k, ts) => some (some (k, nothing), ts)
      | ts =>
        match node fuel false false ts with
        | some (k, ts) => some (some (k, nothing), ts)
        | none => none
    match entry? with
    | none => none
    | some (entry, ts) =>
      let acc := entry.toList ++ acc
      match ts with
      | .flowMappingEnd :: ts => some (.mapping acc.reverse, ts)
      | .comma :: ts => flowEntries fuel acc ts
      | _ => none

end

/-! ### Documents -/

/-- Whether the tokens after a document tell that there is no other one. -/
def isClosed (ts : List Token) : Bool :=
  ts.all fun t =>
    match t with
    | .documentEnd => true
    | _ => false

/-- Whether a token tells that a document is empty. -/
def Token.endsDocument : Token → Bool
  | .documentStart => true
  | .documentEnd => true
  | _ => false

/-- The document that tokens are. -/
def document? (ts : List Token) : Option Node := do
  let fuel := 4 * ts.length + 4
  let (n, rest) ←
    match ts with
    | [] => some (nothing, [])
    | [.documentStart] => some (nothing, [])
    | .documentStart :: ts => nodeUnless fuel Token.endsDocument true false ts
    | ts => node fuel true false ts
  if isClosed rest then some n else none

/-- Read a document; a text without one is empty. -/
def read? (text : String) : Option Node :=
  (tokens? text).bind document?

end EntityModel.Yaml
