import SchemaMatch.Hash.Sip
import SchemaMatch.Provider.Basic
import SchemaMatch.Text.Words

/-!
# The hashing embedder

An embedding of words without a model: each word of a text adds two to the component that its hash
chooses, and each of its distinct trigrams adds one to the component chosen by its own hash; the sum
is brought to length one. Texts come close when they share words or parts of words.
-/

namespace SchemaMatch

/-- An embedder by hashes, into a number of dimensions. -/
structure HashEmbedder where
  dimension : UInt64
  dimension_ne_zero : dimension ≠ 0

namespace HashEmbedder

/-- The dimension that is used unless another is given. -/
def standardDimension : UInt64 := 384

/-- The embedder that is used unless another dimension is given. -/
def standard : HashEmbedder := ⟨standardDimension, by decide⟩

/-- The embedder into a number of dimensions, which must not be zero. -/
def ofDimension (dimension : UInt64) : Except Error HashEmbedder :=
  if h : dimension ≠ 0 then .ok ⟨dimension, h⟩ else .error (.invalidSettings .zeroDimension)

/-- The component that a word or a trigram adds to. -/
def bucket (e : HashEmbedder) (token : String) : Nat :=
  (Hash.ofText token % e.dimension).toNat

/-- What a word with some trigrams adds, by component: the word first, and then the trigrams. -/
def contributions (e : HashEmbedder) (word : String) (trigrams : List String) :
    List (Nat × Float32) :=
  (e.bucket word, 2) :: trigrams.map fun trigram => (e.bucket trigram, 1)

/-- The components after something was added to one of them. -/
def add (components : Array Float32) (contribution : Nat × Float32) : Array Float32 :=
  components.modify contribution.1 (· + contribution.2)

/-- The sums that some words, each with its trigrams, add up to. -/
def sums (e : HashEmbedder) (words : List (String × List String)) : List Float32 :=
  ((words.flatMap fun entry => e.contributions entry.1 entry.2).foldl add
    (Array.replicate e.dimension.toNat 0)).toList

/-- The sums that the words of a text add up to. -/
def counts (e : HashEmbedder) (text : String) : List Float32 :=
  e.sums ((Text.words text).map fun word => (word, Text.trigrams word))

/-- The embedding of a text. -/
def embed (e : HashEmbedder) (text : String) : Embedding :=
  Embedding.normalized ⟨e.counts text⟩

/-- What the embedder is. It runs on the processor, whatever device is asked for. -/
def info (e : HashEmbedder) : ProviderIdentity :=
  ⟨"hashing", s!"hashing-{e.dimension}", some e.dimension, .cpu⟩

/-- The embedder as a provider. -/
def provider {m : Type → Type} [Monad m] (e : HashEmbedder) : Provider m where
  info := e.info
  embed texts := pure (.ok (texts.map e.embed))

end HashEmbedder

end SchemaMatch
