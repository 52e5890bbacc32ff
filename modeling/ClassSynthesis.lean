import ClassSynthesis.Annotations.Target
import ClassSynthesis.ClassFile.Assembler
import ClassSynthesis.ClassFile.Listing
import ClassSynthesis.Emission.MethodBody
import ClassSynthesis.Settings
import ClassSynthesis.Proofs.BigEndian
import ClassSynthesis.Proofs.ModifiedUtf8
import ClassSynthesis.Proofs.Reader
import ClassSynthesis.Proofs.Descriptor
import ClassSynthesis.Proofs.Types.Sameness
import ClassSynthesis.Proofs.Types.Hierarchy
import ClassSynthesis.Proofs.Types.Order
import ClassSynthesis.Proofs.Types.Spelling
import ClassSynthesis.Proofs.Pool.Layout
import ClassSynthesis.Proofs.Pool.Resolution
import ClassSynthesis.Proofs.Pool.Adding
import ClassSynthesis.Proofs.Pool.History
import ClassSynthesis.Proofs.Pool.Encoding
import ClassSynthesis.Proofs.Pool.Parser
import ClassSynthesis.Proofs.Pool.Contents
import ClassSynthesis.Proofs.Pool.Reordering
import ClassSynthesis.Proofs.Emission.Built
import ClassSynthesis.Proofs.Emission.Dispatch
import ClassSynthesis.Proofs.Emission.Coercion
import ClassSynthesis.Proofs.Code.Disassembler
import ClassSynthesis.Proofs.Code.Forms
import ClassSynthesis.Proofs.Code.Emitted
import ClassSynthesis.Proofs.Code.Disassembly
import ClassSynthesis.Proofs.Stack.Machine
import ClassSynthesis.Proofs.Stack.Accounting
import ClassSynthesis.Proofs.Stack.Typed
import ClassSynthesis.Proofs.Annotations.Content
import ClassSynthesis.Proofs.Annotations.Parser
import ClassSynthesis.Proofs.Annotations.Writing
import ClassSynthesis.Proofs.Annotations.Attributes
import ClassSynthesis.Proofs.Draft.Changes
import ClassSynthesis.Proofs.Draft.Signatures
import ClassSynthesis.Proofs.Annotations.Parameters
import ClassSynthesis.Proofs.Code.Immediates
import ClassSynthesis.Proofs.Code.Failures
import ClassSynthesis.Proofs.Emission.Valid
import ClassSynthesis.Proofs.Emission.Bodies
import ClassSynthesis.Proofs.Emission.Locals
import ClassSynthesis.Proofs.Emission.Stages
import ClassSynthesis.Proofs.Types.Dimensions
import ClassSynthesis.Proofs.Emission.Conversions
import ClassSynthesis.Proofs.Emission.DynamicTyping
import ClassSynthesis.Proofs.Pool.Capacity
import ClassSynthesis.Proofs.Code.ArgumentCount
import ClassSynthesis.Proofs.Emission.Forwarding
import ClassSynthesis.Proofs.Stack.Arrays
import ClassSynthesis.Proofs.Emission.ArrayCreation
import ClassSynthesis.Proofs.Annotations.Decoding
import ClassSynthesis.Proofs.Annotations.TableCount
import ClassSynthesis.Proofs.Draft.Loading
import ClassSynthesis.Proofs.Draft.Batches
import ClassSynthesis.Proofs.Draft.TypeNames
import ClassSynthesis.Proofs.Draft.Description
import ClassSynthesis.Proofs.Draft.NameSequences
import ClassSynthesis.Proofs.Draft.SuffixedNames
import ClassSynthesis.Proofs.Stack.Constants
import ClassSynthesis.Proofs.Stack.Linked
import ClassSynthesis.Proofs.Stack.Totals
import ClassSynthesis.Proofs.Emission.Frames
import ClassSynthesis.Proofs.Emission.Throwing
