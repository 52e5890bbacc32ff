/-!
# ClassSynthesis.ClassFile.Opcode

The opcodes that generated code uses, numbered as in the virtual machine specification, and the
mnemonics of instruction listings. A listing names families: the eight array loads share one
mnemonic, and so do the loads and stores of local variables, the constants and the returns.
-/

namespace ClassSynthesis

abbrev Opcode := UInt8

namespace Opcode

def nop : Opcode := 0x00
def aconstNull : Opcode := 0x01
def iconstM1 : Opcode := 0x02
def iconst0 : Opcode := 0x03
def iconst5 : Opcode := 0x08
def lconst0 : Opcode := 0x09
def lconst1 : Opcode := 0x0a
def fconst0 : Opcode := 0x0b
def fconst1 : Opcode := 0x0c
def fconst2 : Opcode := 0x0d
def dconst0 : Opcode := 0x0e
def dconst1 : Opcode := 0x0f
def bipush : Opcode := 0x10
def sipush : Opcode := 0x11
def ldc : Opcode := 0x12
def ldcW : Opcode := 0x13
def ldc2W : Opcode := 0x14

def iload : Opcode := 0x15
def aload : Opcode := 0x19
/-- First of the operand-free loads: four slots for each kind of value. -/
def iload0 : Opcode := 0x1a

def iaload : Opcode := 0x2e
def laload : Opcode := 0x2f
def faload : Opcode := 0x30
def daload : Opcode := 0x31
def aaload : Opcode := 0x32
def baload : Opcode := 0x33
def caload : Opcode := 0x34
def saload : Opcode := 0x35

def istore : Opcode := 0x36
def astore : Opcode := 0x3a
/-- First of the operand-free stores. -/
def istore0 : Opcode := 0x3b

def iastore : Opcode := 0x4f
def sastore : Opcode := 0x56

def pop : Opcode := 0x57
def pop2 : Opcode := 0x58
def dup : Opcode := 0x59
def dup2 : Opcode := 0x5c

def i2l : Opcode := 0x85
def i2f : Opcode := 0x86
def i2d : Opcode := 0x87
def l2f : Opcode := 0x89
def l2d : Opcode := 0x8a
def f2d : Opcode := 0x8d

def ireturn : Opcode := 0xac
def lreturn : Opcode := 0xad
def freturn : Opcode := 0xae
def dreturn : Opcode := 0xaf
def areturn : Opcode := 0xb0
def vreturn : Opcode := 0xb1

def getstatic : Opcode := 0xb2
def putstatic : Opcode := 0xb3
def getfield : Opcode := 0xb4
def putfield : Opcode := 0xb5
def invokevirtual : Opcode := 0xb6
def invokespecial : Opcode := 0xb7
def invokestatic : Opcode := 0xb8
def invokeinterface : Opcode := 0xb9

def new : Opcode := 0xbb
def newarray : Opcode := 0xbc
def anewarray : Opcode := 0xbd
def athrow : Opcode := 0xbf
def checkcast : Opcode := 0xc0
def wide : Opcode := 0xc4

/-- Opcode ranges, ends included, and the mnemonic of each. -/
def families : List (Opcode × Opcode × String) :=
  [ (nop, nop, "NOP"),
    (aconstNull, aconstNull, "ACONST_NULL"),
    (iconstM1, iconst5, "ICONST"),
    (lconst0, lconst1, "LCONST"),
    (fconst0, fconst2, "FCONST"),
    (dconst0, dconst1, "DCONST"),
    (bipush, bipush, "BIPUSH"),
    (sipush, sipush, "SIPUSH"),
    (ldc, ldc, "LDC"),
    (ldcW, ldcW, "LDC_W"),
    (ldc2W, ldc2W, "LDC2_W"),
    (iload, aload, "LOAD"),
    (iaload, saload, "ALOAD_ELEMENT"),
    (istore, astore, "STORE"),
    (iastore, sastore, "ASTORE_ELEMENT"),
    (pop, pop, "POP"),
    (pop2, pop2, "POP2"),
    (dup, dup, "DUP"),
    (dup2, dup2, "DUP2"),
    (i2l, i2l, "I2L"),
    (i2f, i2f, "I2F"),
    (i2d, i2d, "I2D"),
    (l2f, l2f, "L2F"),
    (l2d, l2d, "L2D"),
    (f2d, f2d, "F2D"),
    (ireturn, vreturn, "RETURN"),
    (getstatic, getstatic, "GETSTATIC"),
    (putstatic, putstatic, "PUTSTATIC"),
    (getfield, getfield, "GETFIELD"),
    (putfield, putfield, "PUTFIELD"),
    (invokevirtual, invokevirtual, "INVOKEVIRTUAL"),
    (invokespecial, invokespecial, "INVOKESPECIAL"),
    (invokestatic, invokestatic, "INVOKESTATIC"),
    (invokeinterface, invokeinterface, "INVOKEINTERFACE"),
    (new, new, "NEW"),
    (newarray, newarray, "NEWARRAY"),
    (anewarray, anewarray, "ANEWARRAY"),
    (athrow, athrow, "ATHROW"),
    (checkcast, checkcast, "CHECKCAST"),
    (wide, wide, "WIDE") ]

/-- Listing name of an opcode; an opcode that generated code never uses is `UNKNOWN`. -/
def mnemonic (op : Opcode) : String :=
  match families.find? fun (first, last, _) => first ≤ op && op ≤ last with
  | some (_, _, text) => text
  | none => "UNKNOWN"

end Opcode

end ClassSynthesis
